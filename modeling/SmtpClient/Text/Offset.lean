/-
Cutting a text at a byte offset. Offsets count the bytes of the UTF-8 form;
one that falls inside a character, or behind the end, cuts nothing.
-/

namespace SmtpClient.Text

/-- The characters before and from byte `n` on. -/
def splitAtByte : Nat → List Char → Option (List Char × List Char)
  | 0, cs => some ([], cs)
  | _ + 1, [] => none
  | n + 1, c :: cs =>
    if c.utf8Size ≤ n + 1 then
      (splitAtByte (n + 1 - c.utf8Size) cs).map fun (before, after) => (c :: before, after)
    else none

theorem append_of_splitAtByte {n : Nat} {cs before after : List Char}
    (h : splitAtByte n cs = some (before, after)) : before ++ after = cs := by
  induction cs generalizing n before with
  | nil => cases n <;> simp_all [splitAtByte]
  | cons c cs ih =>
    cases n with
    | zero => simp_all [splitAtByte]
    | succ n =>
      simp only [splitAtByte] at h
      split at h
      · obtain ⟨⟨b, a⟩, hb, he⟩ := Option.map_eq_some_iff.mp h
        simp only [Prod.mk.injEq] at he
        obtain ⟨rfl, rfl⟩ := he
        simp [ih hb]
      · simp at h

end SmtpClient.Text
