import LicenseStamp.Text.Basic

/-! # Decimal digits

A number is written in digits, at least one, that do not start with a zero unless the number is
zero itself. Reading the digits gives the number back.
-/

namespace LicenseStamp.Text

variable {text : Text} {c : Char} {n : Nat}

/-- Digits, at least one. -/
def IsDigits (text : Text) : Prop := text ≠ [] ∧ ∀ c ∈ text, c.isDigit = true

theorem digit?_eq (c : Char) : digit? c = if c.isDigit then some (c.toNat - '0'.toNat) else none := by
  have hdigit : ('0' ≤ c ∧ c ≤ '9') ↔ c.isDigit = true := by
    simp only [Char.isDigit, Bool.and_eq_true, decide_eq_true_eq]
    rfl
  simp only [digit?, hdigit]

theorem isSome_digit? (c : Char) : (digit? c).isSome = c.isDigit := by
  rw [digit?_eq]
  cases c.isDigit <;> rfl

/-- What was written item by item is read item by item. -/
theorem mapM_map_eq_some {α β γ : Type} {items : List α} {write : α → β} {read : β → Option γ}
    {value : α → γ} (h : ∀ item ∈ items, read (write item) = some (value item)) :
    (items.map write).mapM read = some (items.map value) := by
  induction items with
  | nil => rfl
  | cons item rest ih =>
      obtain ⟨hitem, hrest⟩ := List.forall_mem_cons.1 h
      rw [List.map_cons, List.mapM_cons, hitem, ih hrest]
      rfl

theorem mapM_digit? (h : ∀ c ∈ text, c.isDigit = true) :
    text.mapM digit? = some (text.map fun c => c.toNat - '0'.toNat) := by
  have hread : ∀ c ∈ text, digit? (id c) = some (c.toNat - '0'.toNat) := by
    intro c hc
    rw [id, digit?_eq, h c hc, if_pos rfl]
  have hall := mapM_map_eq_some hread
  rwa [List.map_id] at hall

/-- Digits are read as the number that they spell. -/
theorem number?_of_isDigits (h : IsDigits text) : number? text = some (Nat.ofDigitChars 10 text 0) := by
  have hempty : text.isEmpty = false := by simpa using h.1
  simp only [number?, hempty, mapM_digit? h.2, Bool.false_eq_true, if_false, Option.map_some,
    List.foldl_map]
  rfl

theorem isDigits_ofNat (n : Nat) : IsDigits (ofNat n) :=
  ⟨Nat.toDigits_ne_nil, fun _ h => Nat.isDigit_of_mem_toDigits (by decide) (by decide) h⟩

/-- A number is read back from its digits. -/
theorem number?_ofNat (n : Nat) : number? (ofNat n) = some n := by
  rw [number?_of_isDigits (isDigits_ofNat n), ofNat, Nat.ofDigitChars_toDigits] <;> decide

theorem head?_ofNat_ne (hn : n ≠ 0) : (ofNat n).head? ≠ some '0' := by
  rw [ofNat]
  induction n using Nat.strongRecOn with
  | ind n ih =>
      by_cases hsmall : n < 10
      · rw [Nat.toDigits_of_lt_base hsmall]
        have hdigit : ∀ m < 10, m ≠ 0 → [m.digitChar].head? ≠ some '0' := by decide
        exact hdigit n hsmall hn
      · -- the first digit is that of the number without its last digit
        have hlead := ih (n / 10) (by omega) (by omega)
        obtain ⟨first, rest, hfirst⟩ := List.exists_cons_of_ne_nil
          (Nat.toDigits_ne_nil (n := n / 10) (b := 10))
        rw [Nat.toDigits_of_base_le (by decide) (Nat.le_of_not_lt hsmall)]
        rw [hfirst] at hlead ⊢
        exact hlead

end LicenseStamp.Text
