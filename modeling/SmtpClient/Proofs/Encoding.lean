/-
Texts as bytes. Reading undoes writing and accepts nothing else
(`decode_eq_ok_iff`), the byte that ends a line stands for no other character
(`lineFeed_notMem_encode`), and a text is cut behind any of its characters at
the offset where their bytes end (`splitAtByte_append`). Bytes that end inside a
character are no text (`decode_take_inside`).
-/
import SmtpClient.Reply.Reader

namespace SmtpClient.Text

namespace Utf8

/-! ## Bytes -/

theorem continues_iff {b : UInt8} : continues b = true ↔ 0x80 ≤ b.toNat ∧ b.toNat ≤ 0xbf := by
  simp [continues, UInt8.le_iff_toNat_le]

theorem width_one {lead : UInt8} (h : lead.toNat ≤ 0x7f) : width lead = 1 := by
  rw [width, if_pos (UInt8.le_iff_toNat_le.2 h)]

theorem width_two {lead : UInt8} (h : 0xc2 ≤ lead.toNat) (h' : lead.toNat ≤ 0xdf) : width lead = 2 := by
  have hone : ¬ lead.toNat ≤ 0x7f := by omega
  simp [width, UInt8.le_iff_toNat_le, hone, h, h']

theorem width_three {lead : UInt8} (h : 0xe0 ≤ lead.toNat) (h' : lead.toNat ≤ 0xef) : width lead = 3 := by
  have hone : ¬ lead.toNat ≤ 0x7f := by omega
  have htwo : ¬ lead.toNat ≤ 0xdf := by omega
  simp [width, UInt8.le_iff_toNat_le, hone, htwo, h, h']

theorem width_four {lead : UInt8} (h : 0xf0 ≤ lead.toNat) (h' : lead.toNat ≤ 0xf4) : width lead = 4 := by
  have hone : ¬ lead.toNat ≤ 0x7f := by omega
  have htwo : ¬ lead.toNat ≤ 0xdf := by omega
  have hthree : ¬ lead.toNat ≤ 0xef := by omega
  simp [width, UInt8.le_iff_toNat_le, hone, htwo, hthree, h, h']

/-- A continuing byte is admitted, but for four leads. -/
theorem admits_of {lead second : UInt8} (hc : continues second = true)
    (he0 : lead.toNat = 0xe0 → 0xa0 ≤ second.toNat) (hed : lead.toNat = 0xed → second.toNat ≤ 0x9f)
    (hf0 : lead.toNat = 0xf0 → 0x90 ≤ second.toNat) (hf4 : lead.toNat = 0xf4 → second.toNat ≤ 0x8f) :
    admits lead second = true := by
  obtain ⟨hlow, hhigh⟩ := continues_iff.1 hc
  simp only [admits, beq_iff_eq, ← UInt8.toNat_inj]
  split
  · next h => simp [UInt8.le_iff_toNat_le, he0 h, hhigh]
  split
  · next h => simp [UInt8.le_iff_toNat_le, hed h, hlow]
  split
  · next h => simp [UInt8.le_iff_toNat_le, hf0 h, hhigh]
  split
  · next h => simp [UInt8.le_iff_toNat_le, hf4 h, hlow]
  · exact hc

/-- The leads that begin a character, by its width. -/
theorem width_cases (lead : UInt8) : (width lead = 1 ∧ lead.toNat ≤ 0x7f) ∨
    (width lead = 2 ∧ 0xc2 ≤ lead.toNat ∧ lead.toNat ≤ 0xdf) ∨
    (width lead = 3 ∧ 0xe0 ≤ lead.toNat ∧ lead.toNat ≤ 0xef) ∨
    (width lead = 4 ∧ 0xf0 ≤ lead.toNat ∧ lead.toNat ≤ 0xf4) ∨ width lead = 0 := by
  simp only [width, UInt8.le_iff_toNat_le, Bool.and_eq_true, decide_eq_true_eq]
  split
  · next h => exact .inl ⟨rfl, h⟩
  split
  · next h => exact .inr (.inl ⟨rfl, h⟩)
  split
  · next h => exact .inr (.inr (.inl ⟨rfl, h⟩))
  split
  · next h => exact .inr (.inr (.inr (.inl ⟨rfl, h⟩)))
  · exact .inr (.inr (.inr (.inr rfl)))

/-- What an admitted byte is, by its lead. -/
theorem admits_bounds {lead second : UInt8} (h : admits lead second = true) :
    (0x80 ≤ second.toNat ∧ second.toNat ≤ 0xbf) ∧
    (lead.toNat = 0xe0 → 0xa0 ≤ second.toNat) ∧ (lead.toNat = 0xed → second.toNat ≤ 0x9f) ∧
    (lead.toNat = 0xf0 → 0x90 ≤ second.toNat) ∧ (lead.toNat = 0xf4 → second.toNat ≤ 0x8f) := by
  simp only [admits, continues, beq_iff_eq, ← UInt8.toNat_inj, UInt8.le_iff_toNat_le, UInt8.reduceToNat,
    Bool.ite_eq_true_distrib, Bool.and_eq_true, decide_eq_true_eq] at h
  split at h
  · omega
  split at h
  · omega
  split at h
  · omega
  split at h
  · omega
  · omega

/-! ## Characters -/

/-- The bytes of a character, by their number. -/
inductive Form (c : Char) : List UInt8 → Prop where
  | one {a : UInt8} : a.toNat = c.toNat → c.toNat ≤ 0x7f → Form c [a]
  | two {a b : UInt8} : a.toNat = c.toNat / 64 + 0xc0 → b.toNat = c.toNat % 64 + 0x80 → 0x7f < c.toNat →
    c.toNat ≤ 0x7ff → Form c [a, b]
  | three {a b d : UInt8} : a.toNat = c.toNat / 4096 + 0xe0 → b.toNat = c.toNat / 64 % 64 + 0x80 →
    d.toNat = c.toNat % 64 + 0x80 → 0x7ff < c.toNat → c.toNat ≤ 0xffff → Form c [a, b, d]
  | four {a b d e : UInt8} : a.toNat = c.toNat / 262144 + 0xf0 → b.toNat = c.toNat / 4096 % 64 + 0x80 →
    d.toNat = c.toNat / 64 % 64 + 0x80 → e.toNat = c.toNat % 64 + 0x80 → 0xffff < c.toNat → Form c [a, b, d, e]

theorem form_encodeChar (c : Char) : Form c (String.utf8EncodeChar c) := by
  have hscalar : c.toNat < 0xd800 ∨ 0xdfff < c.toNat ∧ c.toNat < 0x110000 := c.valid
  have hval : c.val.toNat = c.toNat := rfl
  have hbyte : ∀ n < 256, (UInt8.ofNat n).toNat = n := fun _ h => UInt8.toNat_ofNat_of_lt' h
  simp only [String.utf8EncodeChar, hval]
  split
  · next h => exact .one (hbyte _ (by omega)) h
  split
  · next h h' =>
    refine .two ?_ ?_ (by omega) h' <;> rw [hbyte _ (by omega)]
    omega
  split
  · next h h' =>
    refine .three ?_ ?_ ?_ (by omega) h' <;> rw [hbyte _ (by omega)]
    omega
  · next h =>
    refine .four ?_ ?_ ?_ ?_ (by omega) <;> rw [hbyte _ (by omega)]
    omega

/-- A character has one form. -/
theorem Form.unique {c : Char} {xs ys : List UInt8} (h : Form c xs) (h' : Form c ys) : xs = ys := by
  have heq : ∀ {x y : UInt8}, x.toNat = y.toNat → x = y := UInt8.toNat_inj.1
  cases h with
  | one ha hle =>
    cases h' with
    | one ha' => rw [heq (ha.trans ha'.symm)]
    | two | three | four => omega
  | two ha hb hlt hle =>
    cases h' with
    | two ha' hb' => rw [heq (ha.trans ha'.symm), heq (hb.trans hb'.symm)]
    | one | three | four => omega
  | three ha hb hd hlt hle =>
    cases h' with
    | three ha' hb' hd' => rw [heq (ha.trans ha'.symm), heq (hb.trans hb'.symm), heq (hd.trans hd'.symm)]
    | one | two | four => omega
  | four ha hb hd he hlt =>
    cases h' with
    | four ha' hb' hd' he' =>
      rw [heq (ha.trans ha'.symm), heq (hb.trans hb'.symm), heq (hd.trans hd'.symm), heq (he.trans he'.symm)]
    | one | two | three => omega

theorem Form.flatMap {c : Char} {bytes : List UInt8} (h : Form c bytes) (cs : List Char) :
    (c :: cs).flatMap String.utf8EncodeChar = bytes ++ cs.flatMap String.utf8EncodeChar := by
  rw [List.flatMap_cons, h.unique (form_encodeChar c)]

/-- What the bytes of a character are to a reader: how many the lead asks for,
and that it admits the others. -/
inductive Shape : List UInt8 → Prop where
  | one {a : UInt8} : width a = 1 → Shape [a]
  | two {a b : UInt8} : width a = 2 → continues b = true → Shape [a, b]
  | three {a b d : UInt8} : width a = 3 → admits a b = true → continues d = true → Shape [a, b, d]
  | four {a b d e : UInt8} : width a = 4 → admits a b = true → continues d = true → continues e = true →
    Shape [a, b, d, e]

theorem Form.shape {c : Char} {bytes : List UInt8} (h : Form c bytes) : Shape bytes := by
  have hscalar : c.toNat < 0xd800 ∨ 0xdfff < c.toNat ∧ c.toNat < 0x110000 := c.valid
  cases h with
  | one ha h => exact .one (width_one (ha ▸ h))
  | two ha hb h h' => exact .two (width_two (by omega) (by omega)) (continues_iff.2 (by omega))
  | @three a b d ha hb hd h h' =>
    have hsecond : continues b = true := continues_iff.2 (by omega)
    exact .three (width_three (by omega) (by omega))
      (admits_of hsecond (by omega) (by omega) (by omega) (by omega)) (continues_iff.2 (by omega))
  | @four a b d e ha hb hd he h =>
    have hsecond : continues b = true := continues_iff.2 (by omega)
    exact .four (width_four (by omega) (by omega))
      (admits_of hsecond (by omega) (by omega) (by omega) (by omega)) (continues_iff.2 (by omega))
      (continues_iff.2 (by omega))

/-- The bytes of a character are read as that character. -/
theorem decodeFrom_encodeChar (offset : Nat) (c : Char) (rest : List UInt8) :
    decodeFrom offset (String.utf8EncodeChar c ++ rest) =
      (decodeFrom (offset + (String.utf8EncodeChar c).length) rest).map (c :: ·) := by
  have hform := form_encodeChar c
  have hshape := hform.shape
  generalize String.utf8EncodeChar c = bytes at hform hshape ⊢
  rw [decodeFrom.eq_def]
  cases hform with
  | one ha h =>
    cases hshape with
    | one hwidth => simp only [List.cons_append, List.nil_append, hwidth, ha, Char.ofNat_toNat]; rfl
  | @two a b ha hb h h' =>
    cases hshape with
    | two hwidth hcontinues =>
    have hchar : a.toNat % 32 * 64 + bits b = c.toNat := by rw [bits]; omega
    simp only [List.cons_append, List.nil_append, hwidth, hcontinues, if_true, hchar, Char.ofNat_toNat]
    rfl
  | @three a b d ha hb hd h h' =>
    cases hshape with
    | three hwidth hadmits hcontinues =>
    have hchar : (a.toNat % 16 * 64 + bits b) * 64 + bits d = c.toNat := by rw [bits, bits]; omega
    simp only [List.cons_append, List.nil_append, hwidth, hadmits, hcontinues, if_true, hchar, Char.ofNat_toNat]
    rfl
  | @four a b d e ha hb hd he h =>
    cases hshape with
    | four hwidth hadmits hthird hcontinues =>
    have hscalar : c.toNat < 0xd800 ∨ 0xdfff < c.toNat ∧ c.toNat < 0x110000 := c.valid
    have hchar : ((a.toNat % 8 * 64 + bits b) * 64 + bits d) * 64 + bits e = c.toNat := by
      rw [bits, bits, bits]
      omega
    simp only [List.cons_append, List.nil_append, hwidth, hadmits, hthird, hcontinues, if_true, hchar,
      Char.ofNat_toNat]
    rfl

/-- Bytes that end inside a character are a fault at the offset where it begins. -/
theorem decodeFrom_begun {n : Nat} {c : Char} (hbegun : 0 < n) (hn : n < c.utf8Size) (offset : Nat) :
    decodeFrom offset ((String.utf8EncodeChar c).take n) = .error (.incomplete offset) := by
  have hshape := (form_encodeChar c).shape
  have hlength := String.length_utf8EncodeChar c
  rw [← hlength] at hn
  obtain ⟨n, rfl⟩ := Nat.exists_eq_succ_of_ne_zero (Nat.ne_zero_of_lt hbegun)
  generalize String.utf8EncodeChar c = bytes at hshape hn ⊢
  rw [decodeFrom.eq_def]
  cases hshape with
  | one => exact absurd hn (by simp)
  | two hwidth =>
    simp only [List.length_cons, List.length_nil] at hn
    obtain rfl : n = 0 := by omega
    simp [hwidth]
  | three hwidth hadmits =>
    simp only [List.length_cons, List.length_nil] at hn
    obtain rfl | rfl : n = 0 ∨ n = 1 := by omega
    · simp [hwidth]
    · simp [hwidth, hadmits]
  | four hwidth hadmits hthird =>
    simp only [List.length_cons, List.length_nil] at hn
    obtain rfl | rfl | rfl : n = 0 ∨ n = 1 ∨ n = 2 := by omega
    · simp [hwidth]
    · simp [hwidth, hadmits]
    · simp [hwidth, hadmits, hthird]

/-- Reading goes on behind the bytes of characters. -/
theorem decodeFrom_append (offset : Nat) (cs : List Char) (rest : List UInt8) :
    decodeFrom offset (cs.flatMap String.utf8EncodeChar ++ rest) =
      (decodeFrom (offset + (cs.flatMap String.utf8EncodeChar).length) rest).map (cs ++ ·) := by
  induction cs generalizing offset with
  | nil => cases hr : decodeFrom offset rest <;> simp [hr, Except.map]
  | cons c cs ih =>
    rw [List.flatMap_cons, List.append_assoc, decodeFrom_encodeChar, ih, List.length_append, Nat.add_assoc]
    cases decodeFrom _ rest <;> rfl

theorem decodeFrom_encode (offset : Nat) (cs : List Char) :
    decodeFrom offset (cs.flatMap String.utf8EncodeChar) = .ok cs := by
  have hread := decodeFrom_append offset cs []
  rwa [List.append_nil, decodeFrom, Except.map, List.append_nil] at hread

theorem toNat_ofNat {n : Nat} (h : n < 0xd800 ∨ 0xdfff < n ∧ n < 0x110000) : (Char.ofNat n).toNat = n := by
  have hvalid : n.isValidChar := h
  rw [Char.ofNat, dif_pos hvalid]
  rfl

/-- One more character was read. -/
theorem map_cons_ok {c : Char} {read : Except Fault (List Char)} {cs : List Char}
    (h : read.map (c :: ·) = .ok cs) : ∃ later, read = .ok later ∧ cs = c :: later := by
  cases read with
  | error fault => cases h
  | ok later => cases h; exact ⟨later, rfl, rfl⟩

/-- What is read as characters is their bytes. -/
theorem eq_encode_of_decodeFrom {offset : Nat} {bytes : List UInt8} {cs : List Char}
    (h : decodeFrom offset bytes = .ok cs) : bytes = cs.flatMap String.utf8EncodeChar := by
  fun_induction decodeFrom offset bytes generalizing cs with
  | case1 => cases h; rfl
  | case2 offset a rest hw ih =>
    obtain ⟨later, hl, rfl⟩ := map_cons_ok h
    have hbounds := width_cases a
    have hc : (Char.ofNat a.toNat).toNat = a.toNat := toNat_ofNat (by omega)
    have hform : Form (Char.ofNat a.toNat) [a] := .one hc.symm (by omega)
    rw [hform.flatMap, ← ih hl]
    rfl
  | case4 offset a hw b rest hb ih =>
    obtain ⟨later, hl, rfl⟩ := map_cons_ok h
    have hbounds := width_cases a
    have hcontinues := continues_iff.1 hb
    have hbits : bits b = b.toNat % 64 := rfl
    have hc : (Char.ofNat (a.toNat % 32 * 64 + bits b)).toNat = a.toNat % 32 * 64 + bits b := toNat_ofNat (by omega)
    have hform : Form (Char.ofNat (a.toNat % 32 * 64 + bits b)) [a, b] :=
      .two (by omega) (by omega) (by omega) (by omega)
    rw [hform.flatMap, ← ih hl]
    rfl
  | case8 offset a hw b hb d rest hd ih =>
    obtain ⟨later, hl, rfl⟩ := map_cons_ok h
    have hbounds := width_cases a
    have hadmits := admits_bounds hb
    have hcontinues := continues_iff.1 hd
    have hbits : bits b = b.toNat % 64 ∧ bits d = d.toNat % 64 := ⟨rfl, rfl⟩
    have hc : (Char.ofNat ((a.toNat % 16 * 64 + bits b) * 64 + bits d)).toNat =
        (a.toNat % 16 * 64 + bits b) * 64 + bits d := toNat_ofNat (by omega)
    have hform : Form (Char.ofNat ((a.toNat % 16 * 64 + bits b) * 64 + bits d)) [a, b, d] :=
      .three (by omega) (by omega) (by omega) (by omega) (by omega)
    rw [hform.flatMap, ← ih hl]
    rfl
  | case14 offset a hw b hb d hd e rest he ih =>
    obtain ⟨later, hl, rfl⟩ := map_cons_ok h
    have hbounds := width_cases a
    have hadmits := admits_bounds hb
    have hthird := continues_iff.1 hd
    have hcontinues := continues_iff.1 he
    have hbits : bits b = b.toNat % 64 ∧ bits d = d.toNat % 64 ∧ bits e = e.toNat % 64 := ⟨rfl, rfl, rfl⟩
    have hc : (Char.ofNat (((a.toNat % 8 * 64 + bits b) * 64 + bits d) * 64 + bits e)).toNat =
        ((a.toNat % 8 * 64 + bits b) * 64 + bits d) * 64 + bits e := toNat_ofNat (by omega)
    have hform : Form (Char.ofNat (((a.toNat % 8 * 64 + bits b) * 64 + bits d) * 64 + bits e)) [a, b, d, e] :=
      .four (by omega) (by omega) (by omega) (by omega) (by omega)
    rw [hform.flatMap, ← ih hl]
    rfl
  | _ => cases h

/-! ## Texts -/

/-- **Reading undoes writing.** -/
theorem decode_encode (s : String) : decode (encode s) = .ok s := by
  rw [decode, encode, decodeFrom_encode, Except.map, String.ofList_toList]

/-- **Only what writing makes is read.** -/
theorem decode_eq_ok_iff {bytes : List UInt8} {s : String} : decode bytes = .ok s ↔ bytes = encode s := by
  refine ⟨fun h => ?_, fun h => h ▸ decode_encode s⟩
  rw [decode] at h
  cases hd : decodeFrom 0 bytes with
  | error fault => rw [hd] at h; cases h
  | ok cs =>
    rw [hd] at h
    cases h
    rw [encode, String.toList_ofList]
    exact eq_encode_of_decodeFrom hd

theorem encode_injective {s s' : String} (h : encode s = encode s') : s = s' := by
  have hread := decode_encode s
  rw [h, decode_encode] at hread
  exact (Except.ok.inj hread).symm

theorem encode_append (s s' : String) : encode (s ++ s') = encode s ++ encode s' := by
  rw [encode, String.toList_append, List.flatMap_append, encode, encode]

/-- No byte of another character is a line feed. -/
theorem Form.toNat_ne {c : Char} {bytes : List UInt8} (h : Form c bytes) (hc : c.toNat ≠ 10) :
    ∀ b ∈ bytes, b.toNat ≠ 10 := by
  cases h with
  | one | two | three | four =>
    simp only [List.mem_cons, List.not_mem_nil, or_false, forall_eq_or_imp, forall_eq]
    omega

theorem lineFeed_notMem_encode {s : String} (h : '\n' ∉ s.toList) : lineFeed ∉ encode s := by
  intro hmem
  obtain ⟨c, hc, hbyte⟩ := List.mem_flatMap.1 hmem
  have hne : c.toNat ≠ 10 := by
    intro he
    have hchar : c = '\n' := Char.toNat_inj.1 he
    exact h (hchar ▸ hc)
  exact (form_encodeChar c).toNat_ne hne lineFeed hbyte rfl

/-- The number of bytes that characters take. -/
def size (cs : List Char) : Nat :=
  (cs.flatMap String.utf8EncodeChar).length

theorem size_cons (c : Char) (cs : List Char) : size (c :: cs) = c.utf8Size + size cs := by
  rw [size, List.flatMap_cons, List.length_append, String.length_utf8EncodeChar, size]

theorem size_append (before after : List Char) : size (before ++ after) = size before + size after := by
  rw [size, List.flatMap_append, List.length_append, size, size]

theorem size_replicate (n : Nat) (c : Char) : size (List.replicate n c) = n * c.utf8Size := by
  induction n with
  | zero => rw [List.replicate_zero, Nat.zero_mul]; rfl
  | succ n ih => rw [List.replicate_succ, size_cons, ih, Nat.succ_mul, Nat.add_comm]

theorem encode_length (s : String) : (encode s).length = size s.toList := rfl

end Utf8

/-- A text is cut behind any of its characters at the offset where their bytes
end. -/
theorem splitAtByte_append (before after : List Char) :
    splitAtByte (Utf8.size before) (before ++ after) = some (before, after) := by
  induction before with
  | nil => cases after <;> rfl
  | cons c before ih =>
    have hsize : 0 < c.utf8Size := c.utf8Size_pos
    rw [Utf8.size_cons, List.cons_append]
    obtain ⟨n, hn⟩ : ∃ n, c.utf8Size + Utf8.size before = n + 1 := ⟨_, (Nat.succ_pred (by omega)).symm⟩
    have hrest : n + 1 - c.utf8Size = Utf8.size before := by omega
    rw [hn, splitAtByte, if_pos (by omega), hrest, ih]
    rfl

/-- A cut stands where the bytes before it end. -/
theorem splitAtByte_eq_some_iff {n : Nat} {cs before behind : List Char} :
    splitAtByte n cs = some (before, behind) ↔ cs = before ++ behind ∧ Utf8.size before = n := by
  refine ⟨fun h => ⟨(append_of_splitAtByte h).symm, ?_⟩, fun ⟨hcs, hn⟩ => ?_⟩
  · fun_induction splitAtByte n cs generalizing before with
    | case1 => cases h; rfl
    | case2 => cases h
    | case3 n c cs hfits ih =>
      obtain ⟨⟨first, rest⟩, hsplit, he⟩ := Option.map_eq_some_iff.1 h
      cases he
      rw [Utf8.size_cons, ih hsplit]
      omega
    | case4 => cases h
  · rw [hcs, ← hn, splitAtByte_append]

theorem splitAtByte_whole {n : Nat} {cs : List Char} (h : Utf8.size cs = n) : splitAtByte n cs = some (cs, []) :=
  splitAtByte_eq_some_iff.2 ⟨(List.append_nil cs).symm, h⟩

/-- A text is cut at an offset in one way. -/
theorem cut_unique {before before' behind behind' : List Char} (h : before ++ behind = before' ++ behind')
    (hs : Utf8.size before = Utf8.size before') : before = before' ∧ behind = behind' := by
  have hcut := splitAtByte_append before behind
  rw [h, hs, splitAtByte_append] at hcut
  cases hcut
  exact ⟨rfl, rfl⟩

/-- Behind its end a text is not cut. -/
theorem splitAtByte_eq_none {n : Nat} {cs : List Char} (h : Utf8.size cs < n) :
    splitAtByte n cs = none := by
  induction cs generalizing n with
  | nil =>
    cases n with
    | zero => cases h
    | succ n => rfl
  | cons c cs ih =>
    rw [Utf8.size_cons] at h
    obtain ⟨n, rfl⟩ := Nat.exists_eq_succ_of_ne_zero (Nat.ne_zero_of_lt h)
    rw [splitAtByte, if_pos (by omega), ih (by omega)]
    rfl

/-- The offset falls inside a character, the one that begins at `start`. -/
def FallsInside (n start : Nat) (cs : List Char) : Prop :=
  ∃ before c behind, cs = before ++ c :: behind ∧ Utf8.size before = start ∧ start < n ∧ n < start + c.utf8Size

/-- An offset within a text cuts it, or falls inside a character. -/
theorem split_or_inside {n : Nat} {cs : List Char} (h : n ≤ Utf8.size cs) :
    (∃ before behind, splitAtByte n cs = some (before, behind)) ∨ ∃ start, FallsInside n start cs := by
  induction cs generalizing n with
  | nil =>
    obtain rfl := Nat.le_zero.1 h
    exact .inl ⟨[], [], rfl⟩
  | cons c cs ih =>
    rw [Utf8.size_cons] at h
    by_cases hfits : c.utf8Size ≤ n
    · obtain ⟨before, behind, hsplit⟩ | ⟨start, before, c', behind, rfl, rfl, hlow, hhigh⟩ :=
        ih (n := n - c.utf8Size) (by omega)
      · obtain ⟨rfl, hsize⟩ := splitAtByte_eq_some_iff.1 hsplit
        refine .inl ⟨c :: before, behind, splitAtByte_eq_some_iff.2 ⟨rfl, ?_⟩⟩
        rw [Utf8.size_cons, hsize]
        omega
      · refine .inr ⟨Utf8.size (c :: before), c :: before, c', behind, rfl, rfl, ?_⟩
        rw [Utf8.size_cons]
        omega
    · obtain rfl | hpos := Nat.eq_zero_or_pos n
      · exact .inl ⟨[], c :: cs, rfl⟩
      · exact .inr ⟨0, [], c, cs, rfl, rfl, hpos, by omega⟩

namespace Utf8

variable {n start : Nat} {s : String} {before behind : List Char}

/-- The bytes before a cut are the characters before it. -/
theorem decode_take (h : splitAtByte n s.toList = some (before, behind)) :
    decode ((encode s).take n) = .ok (String.ofList before) := by
  obtain ⟨hs, rfl⟩ := splitAtByte_eq_some_iff.1 h
  rw [decode, encode, hs, List.flatMap_append, size, List.take_left, decodeFrom_encode]
  rfl

/-- The bytes before an offset inside a character are no text. -/
theorem decode_take_inside (h : FallsInside n start s.toList) :
    decode ((encode s).take n) = .error (.incomplete start) := by
  obtain ⟨before, c, behind, hs, rfl, hlow, hhigh⟩ := h
  have hbytes : (encode s).take n =
      before.flatMap String.utf8EncodeChar ++ (String.utf8EncodeChar c).take (n - size before) := by
    rw [encode, hs, List.flatMap_append, List.flatMap_cons, List.take_append, List.take_of_length_le (Nat.le_of_lt hlow),
      List.take_append_of_le_length (by rw [String.length_utf8EncodeChar, ← size]; omega), ← size]
  rw [decode, hbytes, decodeFrom_append, ← size, decodeFrom_begun (by omega) (by omega), Nat.zero_add]
  rfl

end Utf8

end SmtpClient.Text
