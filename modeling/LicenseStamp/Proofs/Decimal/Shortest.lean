import LicenseStamp.Decimal.Seconds
import LicenseStamp.Proofs.Json.Grammar

/-! # Decimals in documents

The text of a number in a report file is a number of JSON. A number that is not zero has no decimal
whose digits are zero, so its digits do not start with a zero wherever they stand.
-/

namespace LicenseStamp.Dyadic

variable {x : Dyadic} {d : Decimal}

/-! ## Digits -/

theorem powerOfTen_snd_pos (exponent : Int) : 0 < (powerOfTen exponent).2 := by
  unfold powerOfTen
  split
  · exact Nat.one_pos
  · exact Nat.pow_pos (by decide)

theorem power_fst_pos (exponent : Int) : 0 < (power exponent).1 := by
  unfold power
  split
  · exact Nat.pow_pos (by decide)
  · exact Nat.one_pos

/-- No decimal without digits reads back as a number other than zero. -/
theorem digits_ne_zero_of_readsBack (hx : x.mantissa ≠ 0) (h : x.readsBack d = true) :
    d.digits ≠ 0 := by
  intro hzero
  have hunit := Nat.mul_pos (powerOfTen_snd_pos d.exponent) (power_fst_pos x.exponent)
  have hlow : 0 < (4 * x.mantissa - if x.mantissa = Nat.pow 2 52 then 1 else 2) *
      ((powerOfTen d.exponent).2 * (power x.exponent).1) := by
    refine Nat.mul_pos ?_ hunit
    split <;> omega
  simp only [readsBack, hzero, Nat.mul_zero, Nat.zero_mul] at h
  split at h
  all_goals
    simp only [Bool.and_eq_true, decide_eq_true_eq] at h
    omega

theorem le_roundDiv (num den : Nat) : num / den ≤ roundDiv num den := by
  unfold roundDiv
  dsimp only
  split <;> omega

theorem digits_ne_zero_of_onGrid? {exponent : Int} (hx : x.mantissa ≠ 0)
    (h : x.onGrid? exponent = some d) : d.digits ≠ 0 := by
  unfold onGrid? at h
  dsimp only at h
  split at h
  next hbelow _ =>
    obtain rfl := Option.some.inj h
    have hne := digits_ne_zero_of_readsBack hx hbelow
    have hle := le_roundDiv (x.num * (powerOfTen exponent).2) (x.den * (powerOfTen exponent).1)
    exact Nat.ne_of_gt (Nat.lt_of_lt_of_le (Nat.pos_of_ne_zero hne) hle)
  next hbelow _ =>
    obtain rfl := Option.some.inj h
    exact digits_ne_zero_of_readsBack hx hbelow
  next =>
    obtain rfl := Option.some.inj h
    exact Nat.succ_ne_zero _
  · cases h

theorem digits_trim_ne_zero (h : d.digits ≠ 0) (fuel : Nat) : (d.trim fuel).digits ≠ 0 := by
  induction fuel generalizing d with
  | zero => exact h
  | succ fuel ih =>
      rw [Decimal.trim]
      split
      next htrim => exact ih (show d.digits / 10 ≠ 0 by omega)
      · exact h

theorem shortest_cases (hx : x.mantissa ≠ 0) : x.shortest.digits ≠ 0 ∨ x.shortest = ⟨0, 0⟩ := by
  unfold shortest
  dsimp only
  split
  next hfound =>
    obtain ⟨_, _, hgrid⟩ := List.exists_of_findSome?_eq_some hfound
    exact .inl (digits_trim_ne_zero (digits_ne_zero_of_onGrid? hx hgrid) 17)
  · exact .inr rfl

/-! ## Texts -/

theorem isDigits_zeros {text : Text} (h : Text.IsDigits text) (n : Nat) :
    Text.IsDigits (zeros n ++ text) := by
  refine ⟨by simpa using fun _ => h.1, fun c hc => ?_⟩
  rcases List.mem_append.1 hc with hzero | hdigit
  · rw [(List.mem_replicate.1 hzero).2]
    rfl
  · exact h.2 c hdigit

/-- The first digits of a number that is not zero are the whole part of a number. -/
theorem isWhole_take {n count : Nat} (hn : n ≠ 0) (hcount : 0 < count) :
    Json.IsWhole ((Text.ofNat n).take count) := by
  have hdigits := Text.isDigits_ofNat n
  refine .digits ⟨?_, fun c hc => hdigits.2 c (List.mem_of_mem_take hc)⟩ ?_
  · simpa [List.take_eq_nil_iff, Nat.ne_of_gt hcount] using hdigits.1
  · rw [List.head?_take, if_neg (Nat.ne_of_gt hcount)]
    exact Text.head?_ofNat_ne hn

theorem isDigits_drop {n count : Nat} (hcount : count < (Text.ofNat n).length) :
    Text.IsDigits ((Text.ofNat n).drop count) := by
  refine ⟨?_, fun c hc => (Text.isDigits_ofNat n).2 c (List.mem_of_mem_drop hc)⟩
  rw [Ne, List.drop_eq_nil_iff]
  omega

/-- The first digits of a number and zeros behind them are the whole part of a number. -/
theorem isWhole_zeros {n : Nat} (hn : n ≠ 0) (count : Nat) :
    Json.IsWhole (Text.ofNat n ++ zeros count) := by
  have hdigits := Text.isDigits_ofNat n
  refine .digits ⟨by simp [hdigits.1], fun c hc => ?_⟩ ?_
  · rcases List.mem_append.1 hc with hdigit | hzero
    · exact hdigits.2 c hdigit
    · rw [(List.mem_replicate.1 hzero).2]
      rfl
  · obtain ⟨first, rest, hfirst⟩ := List.exists_cons_of_ne_nil hdigits.1
    have hhead := Text.head?_ofNat_ne hn
    rw [hfirst] at hhead ⊢
    exact hhead

theorem isFraction_zero : Json.IsFraction ['.', '0'] := .digits (Text.isDigits_ofNat 0)

theorem isExponent_power (power : Int) :
    Json.IsExponent ((if power < 0 then ['e', '-'] else ['e', '+']) ++ Text.ofNat power.natAbs) := by
  have hdigits := Text.isDigits_ofNat power.natAbs
  split
  · exact .digits (.inl rfl) (.sign (c := '-') (by decide)) hdigits
  · exact .digits (.inl rfl) (.sign (c := '+') (by decide)) hdigits

/-- A decimal with digits is written as a number. -/
theorem Decimal.isNumber_text (h : d.digits ≠ 0) : Json.IsNumber d.text := by
  have hdigits := Text.isDigits_ofNat d.digits
  have hlength : 0 < (Text.ofNat d.digits).length := List.length_pos_iff.2 hdigits.1
  unfold Decimal.text
  dsimp only
  refine iteInduction (fun hwhole => ?_) fun hnotWhole => ?_
  · -- zeros behind the digits
    exact Json.isNumber_append (isWhole_zeros h _) isFraction_zero
  refine iteInduction (fun hinside => ?_) fun hnotInside => ?_
  · -- the point between two digits
    exact Json.isNumber_append (isWhole_take h (by omega)) (.digits (isDigits_drop (by omega)))
  refine iteInduction (fun hbelow => ?_) fun hexponent => ?_
  · -- zeros in front of the digits
    have hnumber := Json.isNumber_append .zero (.digits (isDigits_zeros hdigits
      (-((Text.ofNat d.digits).length + d.exponent)).toNat))
    exact hnumber
  · -- one digit in front of the point, and an exponent
    have hmark := isExponent_power ((Text.ofNat d.digits).length + d.exponent - 1)
    have hfirst := isWhole_take h Nat.one_pos
    rw [List.append_assoc]
    split
    next hone =>
      rw [List.take_of_length_le (Nat.le_of_eq hone)] at hfirst
      simpa using Json.IsNumber.mk .none hfirst .none hmark
    next hmore =>
      have hrest : Json.IsFraction ('.' :: (Text.ofNat d.digits).drop 1) :=
        .digits (isDigits_drop (by omega))
      simpa using Json.IsNumber.mk .none hfirst hrest hmark

/-- A number in a report file is a number of JSON. -/
theorem isNumber_text (x : Dyadic) : Json.IsNumber x.text := by
  have hzero : Json.IsNumber ['0', '.', '0'] :=
    Json.isNumber_append Json.IsWhole.zero isFraction_zero
  unfold text
  refine iteInduction (fun _ => hzero) fun hx => ?_
  rcases shortest_cases hx with hdigits | hnone
  · exact Decimal.isNumber_text hdigits
  · rw [hnone]
    exact hzero

end LicenseStamp.Dyadic
