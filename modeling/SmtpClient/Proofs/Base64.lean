/-
Base64 there and back. A text is read as bytes just if it is the one that
writing makes of them (`decode_eq_ok_iff`): the last group decides, and its
values and its bytes determine each other (`Packs`).
-/
import SmtpClient.Proofs.Encoding

namespace SmtpClient.Text.Base64

/-! ## Symbols -/

/-- The byte of the symbol with value `n`. -/
def letter (n : Nat) : UInt8 :=
  UInt8.ofNat (symbol n).toNat

theorem letter_facts : ∀ n < 64, String.utf8EncodeChar (symbol n) = [letter n] ∧ value? (letter n) = some n ∧
    letter n ≠ pad := by
  decide +kernel

theorem value?_eq_some {b : UInt8} {n : Nat} (h : value? b = some n) : n < 64 ∧ b = letter n := by
  have hall : ∀ m < 256, ∀ n ∈ value? (UInt8.ofNat m), n < 64 ∧ UInt8.ofNat m = letter n := by decide +kernel
  rw [← UInt8.ofNat_toNat (x := b)] at h ⊢
  exact hall b.toNat b.toNat_lt n h

theorem values_ok {offset : Nat} {bytes : List UInt8} {vs : List Nat} (h : values offset bytes = .ok vs) :
    bytes = vs.map letter ∧ ∀ v ∈ vs, v < 64 := by
  induction bytes generalizing offset vs with
  | nil => cases h; simp
  | cons b bytes ih =>
    simp only [values] at h
    cases hv : value? b with
    | none => rw [hv] at h; cases h
    | some v =>
      rw [hv] at h
      cases hr : values (offset + 1) bytes with
      | error fault => rw [hr] at h; cases h
      | ok later =>
        rw [hr] at h
        cases h
        obtain ⟨hlt, hb⟩ := value?_eq_some hv
        obtain ⟨hbytes, hall⟩ := ih hr
        exact ⟨by rw [hb, hbytes, List.map_cons], List.forall_mem_cons.2 ⟨hlt, hall⟩⟩

theorem values_letters (offset : Nat) {vs : List Nat} (h : ∀ v ∈ vs, v < 64) :
    values offset (vs.map letter) = .ok vs := by
  induction vs generalizing offset with
  | nil => rfl
  | cons v vs ih =>
    obtain ⟨hv, hvs⟩ := List.forall_mem_cons.1 h
    simp only [List.map_cons, values, (letter_facts v hv).2.1, ih _ hvs]
    rfl

/-! ## Written bytes -/

/-- The bytes of the base64 form of bytes. -/
def letters (bytes : List UInt8) : List UInt8 :=
  Utf8.encode (encode bytes)

theorem letters_nil : letters [] = [] := rfl

theorem letters_one (a : UInt8) : letters [a] = [letter (a.toNat / 4), letter (a.toNat % 4 * 16), pad, pad] := by
  have ha := a.toNat_lt
  have hsymbol : ∀ n < 64, String.utf8EncodeChar (symbol n) = [letter n] := fun n hn => (letter_facts n hn).1
  simp only [letters, Utf8.encode, encode, String.toList_ofList, symbols, List.flatMap_cons, List.flatMap_nil]
  rw [hsymbol _ (by omega), hsymbol _ (by omega)]
  rfl

theorem letters_two (a b : UInt8) : letters [a, b] =
    [letter (a.toNat / 4), letter (a.toNat % 4 * 16 + b.toNat / 16), letter (b.toNat % 16 * 4), pad] := by
  have ha := a.toNat_lt
  have hb := b.toNat_lt
  have hsymbol : ∀ n < 64, String.utf8EncodeChar (symbol n) = [letter n] := fun n hn => (letter_facts n hn).1
  simp only [letters, Utf8.encode, encode, String.toList_ofList, symbols, List.flatMap_cons, List.flatMap_nil]
  rw [hsymbol _ (by omega), hsymbol _ (by omega), hsymbol _ (by omega)]
  rfl

theorem letters_three (a b c : UInt8) (rest : List UInt8) : letters (a :: b :: c :: rest) =
    [letter (a.toNat / 4), letter (a.toNat % 4 * 16 + b.toNat / 16), letter (b.toNat % 16 * 4 + c.toNat / 64),
      letter (c.toNat % 64)] ++ letters rest := by
  have ha := a.toNat_lt
  have hb := b.toNat_lt
  have hc := c.toNat_lt
  have hsymbol : ∀ n < 64, String.utf8EncodeChar (symbol n) = [letter n] := fun n hn => (letter_facts n hn).1
  simp only [letters, Utf8.encode, encode, String.toList_ofList, symbols, List.flatMap_cons]
  rw [hsymbol _ (by omega), hsymbol _ (by omega), hsymbol _ (by omega), hsymbol _ (by omega)]
  rfl

theorem letters_ne_nil (a : UInt8) (rest : List UInt8) : letters (a :: rest) ≠ [] := by
  match rest with
  | [] => simp [letters_one]
  | [b] => simp [letters_two]
  | b :: c :: rest => simp [letters_three]

theorem letters_length_mod (bytes : List UInt8) : (letters bytes).length % 4 = 0 := by
  fun_induction symbols bytes with
  | case1 => rfl
  | case2 a => simp [letters_one]
  | case3 a b => simp [letters_two]
  | case4 a b c rest ih =>
    rw [letters_three, List.length_append]
    simp only [List.length_cons, List.length_nil]
    omega

/-! ## Groups -/

/-- The values of a group, and the bytes they stand for: at most three, with no
bits left over. -/
inductive Packs : List Nat → List UInt8 → Prop where
  | none : Packs [] []
  | one {v w : Nat} : v < 64 → w < 64 → w % 16 = 0 → Packs [v, w] [UInt8.ofNat (v * 4 + w / 16)]
  | two {v w x : Nat} : v < 64 → w < 64 → x < 64 → x % 4 = 0 →
    Packs [v, w, x] [UInt8.ofNat (v * 4 + w / 16), UInt8.ofNat (w % 16 * 16 + x / 4)]
  | three {v w x y : Nat} : v < 64 → w < 64 → x < 64 → y < 64 → Packs [v, w, x, y]
    [UInt8.ofNat (v * 4 + w / 16), UInt8.ofNat (w % 16 * 16 + x / 4), UInt8.ofNat (x % 4 * 64 + y)]

theorem packs_one (a : UInt8) : Packs [a.toNat / 4, a.toNat % 4 * 16] [a] := by
  have ha := a.toNat_lt
  have hbyte : a.toNat / 4 * 4 + a.toNat % 4 * 16 / 16 = a.toNat := by omega
  have h : Packs [a.toNat / 4, a.toNat % 4 * 16] [_] := .one (by omega) (by omega) (by omega)
  rwa [hbyte, UInt8.ofNat_toNat] at h

theorem packs_two (a b : UInt8) :
    Packs [a.toNat / 4, a.toNat % 4 * 16 + b.toNat / 16, b.toNat % 16 * 4] [a, b] := by
  have ha := a.toNat_lt
  have hb := b.toNat_lt
  have hfirst : a.toNat / 4 * 4 + (a.toNat % 4 * 16 + b.toNat / 16) / 16 = a.toNat := by omega
  have hsecond : (a.toNat % 4 * 16 + b.toNat / 16) % 16 * 16 + b.toNat % 16 * 4 / 4 = b.toNat := by omega
  have h : Packs [a.toNat / 4, a.toNat % 4 * 16 + b.toNat / 16, b.toNat % 16 * 4] [_, _] :=
    .two (by omega) (by omega) (by omega) (by omega)
  rwa [hfirst, hsecond, UInt8.ofNat_toNat, UInt8.ofNat_toNat] at h

theorem packs_three (a b c : UInt8) : Packs [a.toNat / 4, a.toNat % 4 * 16 + b.toNat / 16,
    b.toNat % 16 * 4 + c.toNat / 64, c.toNat % 64] [a, b, c] := by
  have ha := a.toNat_lt
  have hb := b.toNat_lt
  have hc := c.toNat_lt
  have hfirst : a.toNat / 4 * 4 + (a.toNat % 4 * 16 + b.toNat / 16) / 16 = a.toNat := by omega
  have hsecond : (a.toNat % 4 * 16 + b.toNat / 16) % 16 * 16 + (b.toNat % 16 * 4 + c.toNat / 64) / 4 = b.toNat := by
    omega
  have hthird : (b.toNat % 16 * 4 + c.toNat / 64) % 4 * 64 + c.toNat % 64 = c.toNat := by omega
  have h : Packs [a.toNat / 4, a.toNat % 4 * 16 + b.toNat / 16, b.toNat % 16 * 4 + c.toNat / 64, c.toNat % 64]
    [_, _, _] := .three (by omega) (by omega) (by omega) (by omega)
  rwa [hfirst, hsecond, hthird, UInt8.ofNat_toNat, UInt8.ofNat_toNat, UInt8.ofNat_toNat] at h

namespace Packs

variable {vs : List Nat} {bytes : List UInt8}

theorem small (h : Packs vs bytes) : ∀ v ∈ vs, v < 64 := by
  cases h with
  | none => simp
  | one | two | three =>
    simp only [List.forall_mem_cons, List.not_mem_nil, false_implies, implies_true, and_true]
    omega

/-- The form of the bytes is that of their values. -/
theorem letters_eq (h : Packs vs bytes) :
    letters bytes = vs.map letter ++ List.replicate ((4 - vs.length) % 4) pad := by
  have hbyte : ∀ n < 256, (UInt8.ofNat n).toNat = n := fun _ h => UInt8.toNat_ofNat_of_lt' h
  cases h with
  | none => rfl
  | @one v w hv hw hrest =>
    have hfirst : (v * 4 + w / 16) / 4 = v := by omega
    have hsecond : (v * 4 + w / 16) % 4 * 16 = w := by omega
    rw [letters_one, hbyte _ (by omega), hfirst, hsecond]
    rfl
  | @two v w x hv hw hx hrest =>
    have hfirst : (v * 4 + w / 16) / 4 = v := by omega
    have hsecond : (v * 4 + w / 16) % 4 * 16 + (w % 16 * 16 + x / 4) / 16 = w := by omega
    have hthird : (w % 16 * 16 + x / 4) % 16 * 4 = x := by omega
    rw [letters_two, hbyte _ (by omega), hbyte _ (by omega), hfirst, hsecond, hthird]
    rfl
  | @three v w x y hv hw hx hy =>
    have hfirst : (v * 4 + w / 16) / 4 = v := by omega
    have hsecond : (v * 4 + w / 16) % 4 * 16 + (w % 16 * 16 + x / 4) / 16 = w := by omega
    have hthird : (w % 16 * 16 + x / 4) % 16 * 4 + (x % 4 * 64 + y) / 64 = x := by omega
    have hfourth : (x % 4 * 64 + y) % 64 = y := by omega
    rw [letters_three, hbyte _ (by omega), hbyte _ (by omega), hbyte _ (by omega), hfirst, hsecond, hthird, hfourth]
    rfl

theorem decodeLast_letters (h : Packs vs bytes) (offset : Nat) : decodeLast offset (letters bytes) = .ok bytes := by
  have hpad : ∀ v ∈ vs, letter v ≠ pad := fun v hv => (letter_facts v (h.small v hv)).2.2
  have hvalues := values_letters offset h.small
  rw [h.letters_eq]
  cases h with
  | none => rfl
  | one _ _ hrest | two _ _ _ hrest =>
    simp only [List.forall_mem_cons, List.not_mem_nil, false_implies, implies_true, and_true] at hpad
    simp only [List.map_cons, List.map_nil] at hvalues
    simp [decodeLast, hpad, hvalues, bind, Except.bind, pure, Except.pure, hrest]
  | three =>
    simp only [List.forall_mem_cons, List.not_mem_nil, false_implies, implies_true, and_true] at hpad
    simp only [List.map_cons, List.map_nil] at hvalues
    simp [decodeLast, hpad, hvalues, bind, Except.bind, pure, Except.pure]

end Packs

/-- Pads come behind the symbols of a group. -/
theorem split_pads {group : List UInt8} (h : (group.dropWhile (· != pad)).any (· != pad) = false) :
    group = group.takeWhile (· != pad) ++ List.replicate (group.dropWhile (· != pad)).length pad := by
  have hpads : group.dropWhile (· != pad) = List.replicate (group.dropWhile (· != pad)).length pad := by
    rw [List.eq_replicate_iff]
    refine ⟨rfl, fun b hb => ?_⟩
    simpa using List.any_eq_false.1 h b hb
  rw [← hpads, List.takeWhile_append_dropWhile]

/-- What a last group is that can be read. -/
theorem decodeLast_packs {offset : Nat} {group bytes : List UInt8} (h : decodeLast offset group = .ok bytes)
    (hlen : group.length ≤ 4) : ∃ vs pads, Packs vs bytes ∧ group = vs.map letter ++ List.replicate pads pad ∧
      group.length % 4 = 0 ∧ (vs = [] → group = []) := by
  simp only [decodeLast, bind, Except.bind, pure, Except.pure, throw, throwThe, MonadExceptOf.throw] at h
  split at h
  · cases h
  next vs hv =>
  split at h
  · cases h
  next hpads =>
  split at h
  · cases h
  next hbody =>
  split at h
  · cases h
  next hfull =>
  obtain ⟨hvs, hsmall⟩ := values_ok hv
  have hgroup : group = vs.map letter ++ List.replicate (group.dropWhile (· != pad)).length pad := by
    rw [← hvs]
    apply split_pads
    by_cases hnil : group.dropWhile (· != pad) = []
    · rw [hnil]; rfl
    · simpa using fun hany => hpads ⟨hnil, .inr hany⟩
  have hcount := congrArg List.length hgroup
  rw [List.length_append, List.length_map, List.length_replicate] at hcount
  rw [hvs, List.length_map] at hbody
  have hempty : vs.length < 2 → group = [] := fun hlt => by simpa [hlt] using hbody
  refine ⟨vs, _, ?_, hgroup, by omega, fun hnil => hempty (by rw [hnil]; decide)⟩
  match vs with
  | [] => cases h; exact .none
  | [v] =>
    rw [hempty (by simp)] at hcount
    simp at hcount
  | [v, w] =>
    simp only [List.forall_mem_cons] at hsmall h
    split at h
    · cases h
    · cases h; exact .one hsmall.1 hsmall.2.1 (by omega)
  | [v, w, x] =>
    simp only [List.forall_mem_cons] at hsmall h
    split at h
    · cases h
    · cases h; exact .two hsmall.1 hsmall.2.1 hsmall.2.2.1 (by omega)
  | [v, w, x, y] =>
    simp only [List.forall_mem_cons] at hsmall
    cases h
    exact .three hsmall.1 hsmall.2.1 hsmall.2.2.1 hsmall.2.2.2.1
  | _ :: _ :: _ :: _ :: _ :: _ => simp at hcount; omega

theorem decodeLast_ok {offset : Nat} {group bytes : List UInt8} (h : decodeLast offset group = .ok bytes)
    (hlen : group.length ≤ 4) : group = letters bytes := by
  obtain ⟨vs, pads, hpacks, hgroup, hfull, hempty⟩ := decodeLast_packs h hlen
  have hcount := congrArg List.length hgroup
  rw [List.length_append, List.length_map, List.length_replicate] at hcount
  have hpads : pads = (4 - vs.length) % 4 := by
    cases hpacks with
    | none => rw [hempty rfl] at hcount; simpa using hcount.symm
    | one | two | three => simp only [List.length_cons, List.length_nil] at hcount ⊢; omega
  rw [hpacks.letters_eq, hgroup, hpads]

/-- A group without pads is three bytes. -/
theorem eq_three_of_letters {a b c d : UInt8} {bytes : List UInt8} (h : [a, b, c, d] = letters bytes)
    (hd : d ≠ pad) : ∃ x y z, bytes = [x, y, z] := by
  match bytes with
  | [] => cases h
  | [x] => rw [letters_one] at h; cases h; exact absurd rfl hd
  | [x, y] => rw [letters_two] at h; cases h; exact absurd rfl hd
  | [x, y, z] => exact ⟨x, y, z, rfl⟩
  | x :: y :: z :: w :: rest =>
    rw [letters_three] at h
    have hlength := congrArg List.length h
    have hpos := List.length_pos_iff.2 (letters_ne_nil w rest)
    simp only [List.length_append, List.length_cons, List.length_nil] at hlength
    omega

theorem decodeWhole_ok {offset : Nat} {a b c d : UInt8} {bytes : List UInt8}
    (h : decodeGroups.decodeWhole offset [a, b, c, d] = .ok bytes) :
    [a, b, c, d] = letters bytes ∧ ∃ x y z, bytes = [x, y, z] := by
  simp only [decodeGroups.decodeWhole, bind, Except.bind] at h
  cases hv : values offset [a, b, c, d] with
  | error fault => rw [hv] at h; cases h
  | ok vs =>
    rw [hv] at h
    have hgroup := decodeLast_ok h (Nat.le_refl 4)
    refine ⟨hgroup, eq_three_of_letters hgroup ?_⟩
    obtain ⟨hvs, hsmall⟩ := values_ok hv
    have hmem : d ∈ vs.map letter := hvs ▸ by simp
    obtain ⟨v, hsymbol, rfl⟩ := List.mem_map.1 hmem
    exact (letter_facts v (hsmall v hsymbol)).2.2

theorem decodeWhole_letters (offset : Nat) (a b c : UInt8) :
    decodeGroups.decodeWhole offset (letters [a, b, c]) = .ok [a, b, c] := by
  have hpacks := packs_three a b c
  have hvalues := values_letters offset hpacks.small
  rw [decodeGroups.decodeWhole, hpacks.decodeLast_letters, letters_three, letters_nil, List.append_nil]
  simp only [List.map_cons, List.map_nil] at hvalues
  rw [hvalues]
  rfl

/-! ## Texts -/

theorem decodeGroups_short {group : List UInt8} (offset : Nat) (h : group.length ≤ 4) :
    decodeGroups offset group = decodeLast offset group := by
  match group with
  | [] | [_] | [_, _] | [_, _, _] | [_, _, _, _] => rw [decodeGroups]; simp
  | _ :: _ :: _ :: _ :: _ :: _ =>
    simp only [List.length_cons] at h
    omega

theorem decodeGroups_ok {offset : Nat} {text bytes : List UInt8} (h : decodeGroups offset text = .ok bytes) :
    text = letters bytes := by
  fun_induction decodeGroups offset text generalizing bytes with
  | case1 offset a b c d e rest ih =>
    cases hg : decodeGroups.decodeWhole offset [a, b, c, d] with
    | error fault => rw [hg] at h; cases h
    | ok group =>
      cases ho : decodeGroups (offset + 4) (e :: rest) with
      | error fault => rw [hg, ho] at h; cases h
      | ok others =>
        rw [hg, ho] at h
        cases h
        obtain ⟨hletters, x, y, z, rfl⟩ := decodeWhole_ok hg
        rw [letters_three, letters_nil, List.append_nil] at hletters
        rw [List.cons_append, List.cons_append, List.cons_append, List.nil_append, letters_three, ← hletters, ← ih ho]
        rfl
  | case2 offset group hshort =>
    refine decodeLast_ok h ?_
    match group with
    | [] | [_] | [_, _] | [_, _, _] | [_, _, _, _] => simp
    | a :: b :: c :: d :: e :: rest => exact absurd rfl (hshort a b c d e rest)

theorem decodeGroups_letters (offset : Nat) (bytes : List UInt8) : decodeGroups offset (letters bytes) = .ok bytes := by
  fun_induction symbols bytes generalizing offset with
  | case1 => rfl
  | case2 a => rw [decodeGroups_short _ (by rw [letters_one]; simp), (packs_one a).decodeLast_letters]
  | case3 a b => rw [decodeGroups_short _ (by rw [letters_two]; simp), (packs_two a b).decodeLast_letters]
  | case4 a b c rest ih =>
    cases rest with
    | nil =>
      rw [decodeGroups_short _ (by rw [letters_three]; simp [letters_nil]), (packs_three a b c).decodeLast_letters]
    | cons r rest =>
      have hwhole := decodeWhole_letters offset a b c
      rw [letters_three, letters_nil, List.append_nil] at hwhole
      obtain ⟨e, more, hmore⟩ := List.exists_cons_of_ne_nil (letters_ne_nil r rest)
      rw [hmore] at ih
      rw [letters_three, hmore]
      simp only [List.cons_append, List.nil_append, decodeGroups, hwhole, ih]
      rfl

/-- **Only what writing makes is read.** -/
theorem decode_eq_ok_iff {text : String} {bytes : List UInt8} :
    decode (Utf8.encode text) = .ok bytes ↔ text = encode bytes := by
  constructor
  · intro h
    apply Utf8.encode_injective
    unfold decode at h
    split at h
    · split at h
      · cases h
      · exact decodeGroups_ok h
    · next hnone =>
      cases h
      rw [List.getLast?_eq_none_iff.1 hnone]
      rfl
  · rintro rfl
    have hmod : (Utf8.encode (encode bytes)).length % 4 = 0 := letters_length_mod bytes
    have hread : decodeGroups 0 (Utf8.encode (encode bytes)) = .ok bytes := decodeGroups_letters 0 bytes
    unfold decode
    split
    · rw [if_neg (by omega), hread]
    · next hnone =>
      rw [List.getLast?_eq_none_iff.1 hnone] at hread
      exact hread

end SmtpClient.Text.Base64
