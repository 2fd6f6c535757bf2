import LicenseStamp.Proofs.Text.Digits
import LicenseStamp.Text.Utf8

/-! # Reading back encoded text

Every text is spelled by its own encoding: the scan reads the bytes of a character as that
character and goes on behind them. What is read as one character without a gap are the bytes of that
character, so bytes spell no other text than the one of which they are the encoding.
-/

namespace LicenseStamp.Utf8

theorem scanFrom_of_done {byte : UInt8} {c : Char} (h : start byte = .done c) (rest : Bytes) :
    scanFrom none (byte :: rest) = some c :: scanFrom none rest := by
  simp only [scanFrom, fresh, h, List.singleton_append]

theorem scanFrom_of_unfinished {byte : UInt8} {state : Unfinished}
    (h : start byte = .unfinished state) (rest : Bytes) :
    scanFrom none (byte :: rest) = scanFrom (some state) rest := by
  simp only [scanFrom, fresh, h, List.nil_append]

theorem start_ascii : ∀ n < 128, start (UInt8.ofNat n) = .done (Char.ofNat n) := by decide

theorem start_two : ∀ k < 32, 2 ≤ k →
    start (UInt8.ofNat (0xC0 + k)) = .unfinished ⟨k, 0x80, 0xBF, 0⟩ := by decide

/-- Of three bytes the second one rules out overlong forms and surrogates. -/
theorem start_three : ∀ k < 16, start (UInt8.ofNat (0xE0 + k)) =
    .unfinished ⟨k, if k = 0 then 0xA0 else 0x80, if k = 13 then 0x9F else 0xBF, 1⟩ := by decide

/-- Of four bytes the second one rules out overlong forms and what is no code point. -/
theorem start_four : ∀ k < 5, start (UInt8.ofNat (0xF0 + k)) =
    .unfinished ⟨k, if k = 0 then 0x90 else 0x80, if k = 4 then 0x8F else 0xBF, 2⟩ := by decide

theorem extend_tail {state : Unfinished} {k : Nat} (hk : k < 64) (hlow : state.low ≤ 0x80 + k)
    (hhigh : 0x80 + k ≤ state.high) :
    extend state (UInt8.ofNat (0x80 + k)) =
      match state.more with
      | 0 => .done (Char.ofNat (state.value * 64 + k))
      | more + 1 => .unfinished ⟨state.value * 64 + k, 0x80, 0xBF, more⟩ := by
  have hbyte : (UInt8.ofNat (0x80 + k)).toNat = 0x80 + k := by
    rw [UInt8.toNat_ofNat']
    omega
  cases hmore : state.more with
  | zero => simp only [extend, hbyte, hlow, hhigh, hmore, and_self, if_true, Nat.add_sub_cancel_left]
  | succ more =>
      simp only [extend, hbyte, hlow, hhigh, hmore, and_self, if_true, Nat.add_sub_cancel_left]

theorem scanFrom_last {state : Unfinished} {k : Nat} (hmore : state.more = 0) (hk : k < 64)
    (hlow : state.low ≤ 0x80 + k) (hhigh : 0x80 + k ≤ state.high) (rest : Bytes) :
    scanFrom (some state) (UInt8.ofNat (0x80 + k) :: rest) =
      some (Char.ofNat (state.value * 64 + k)) :: scanFrom none rest := by
  simp only [scanFrom, extend_tail hk hlow hhigh, hmore]

theorem scanFrom_next {state : Unfinished} {k more : Nat} (hmore : state.more = more + 1)
    (hk : k < 64) (hlow : state.low ≤ 0x80 + k) (hhigh : 0x80 + k ≤ state.high) (rest : Bytes) :
    scanFrom (some state) (UInt8.ofNat (0x80 + k) :: rest) =
      scanFrom (some ⟨state.value * 64 + k, 0x80, 0xBF, more⟩) rest := by
  simp only [scanFrom, extend_tail hk hlow hhigh, hmore]

/-- The bytes of a character are read as that character. -/
theorem scanFrom_encodeChar (c : Char) (rest : Bytes) :
    scanFrom none (encodeChar c ++ rest) = some c :: scanFrom none rest := by
  have hvalid : c.toNat < 0xD800 ∨ 0xDFFF < c.toNat ∧ c.toNat < 0x110000 := c.valid
  have hofNat : Char.ofNat c.toNat = c := Char.ofNat_toNat c
  simp only [encodeChar]
  generalize c.toNat = n at hvalid hofNat
  split
  · rw [List.singleton_append, scanFrom_of_done (start_ascii n (by assumption)), hofNat]
  · split
    · have hvalue : n / 64 * 64 + n % 64 = n := by omega
      rw [List.cons_append, List.singleton_append,
        scanFrom_of_unfinished (start_two (n / 64) (by omega) (by omega)),
        scanFrom_last rfl (by omega) (by dsimp only; omega) (by dsimp only; omega)]
      simp only [hvalue, hofNat]
    · split
      · have hvalue : (n / 4096 * 64 + n / 64 % 64) * 64 + n % 64 = n := by omega
        rw [List.cons_append, List.cons_append, List.singleton_append,
          scanFrom_of_unfinished (start_three (n / 4096) (by omega)),
          scanFrom_next rfl (by omega) (by dsimp only; split <;> omega)
            (by dsimp only; split <;> omega),
          scanFrom_last rfl (by omega) (by dsimp only; omega) (by dsimp only; omega)]
        simp only [hvalue, hofNat]
      · have hvalue : ((n / 262144 * 64 + n / 4096 % 64) * 64 + n / 64 % 64) * 64 + n % 64 = n := by
          omega
        rw [List.cons_append, List.cons_append, List.cons_append, List.singleton_append,
          scanFrom_of_unfinished (start_four (n / 262144) (by omega)),
          scanFrom_next rfl (by omega) (by dsimp only; split <;> omega)
            (by dsimp only; split <;> omega),
          scanFrom_next rfl (by omega) (by dsimp only; omega) (by dsimp only; omega),
          scanFrom_last rfl (by omega) (by dsimp only; omega) (by dsimp only; omega)]
        simp only [hvalue, hofNat]

theorem scan_encode (text : Text) : scan (encode text) = text.map some := by
  induction text with
  | nil => rfl
  | cons c rest ih =>
      rw [scan] at ih ⊢
      rw [encode, List.flatMap_cons, scanFrom_encodeChar]
      exact congrArg (some c :: ·) ih

/-- Every text is spelled by its encoding. -/
theorem decode?_encode (text : Text) : decode? (encode text) = some text := by
  have hread : ∀ c ∈ text, id (some c) = some (id c) := fun _ _ => rfl
  rw [decode?, scan_encode, Text.mapM_map_eq_some hread, List.map_id]

/-- A small byte in the encoding of a character is the character. -/
theorem toNat_of_mem_encodeChar {byte : UInt8} {c : Char} (h : byte ∈ encodeChar c)
    (hsmall : byte.toNat < 0x80) : byte.toNat = c.toNat := by
  have hvalid : c.toNat < 0xD800 ∨ 0xDFFF < c.toNat ∧ c.toNat < 0x110000 := c.valid
  simp only [encodeChar] at h
  generalize c.toNat = n at h hvalid
  have large : ∀ m, 0x80 ≤ m → m < 0x100 → byte ≠ UInt8.ofNat m := by
    rintro m hlow hhigh rfl
    rw [UInt8.toNat_ofNat'] at hsmall
    omega
  split at h
  · obtain rfl := List.mem_singleton.1 h
    rw [UInt8.toNat_ofNat']
    omega
  · split at h
    · simp only [List.mem_cons, List.not_mem_nil, or_false] at h
      rcases h with h | h <;> exact absurd h (large _ (by omega) (by omega))
    · split at h <;> simp only [List.mem_cons, List.not_mem_nil, or_false] at h
      · rcases h with h | h | h <;> exact absurd h (large _ (by omega) (by omega))
      · rcases h with h | h | h | h <;> exact absurd h (large _ (by omega) (by omega))

theorem eq_ofNat_of_mem_encodeChar {byte : UInt8} {c : Char} (h : byte ∈ encodeChar c)
    (hsmall : byte.toNat < 0x80) : c = Char.ofNat byte.toNat := by
  rw [toNat_of_mem_encodeChar h hsmall, Char.ofNat_toNat]

theorem return_not_mem_encode {text : Text} (h : '\r' ∉ text) : 0x0D ∉ encode text := by
  intro hmem
  obtain ⟨c, hc, hbyte⟩ := List.mem_flatMap.1 hmem
  obtain rfl : c = '\r' := eq_ofNat_of_mem_encodeChar hbyte (by decide)
  exact h hc

/-! ## What bytes spell -/

/-- The bytes that end an unfinished character. -/
inductive Unfinished.Ends : Unfinished → Bytes → Char → Prop where
  | last {state : Unfinished} {byte : UInt8} {c : Char} (h : extend state byte = .done c) :
      Ends state [byte] c
  | more {state next : Unfinished} {byte : UInt8} {rest : Bytes} {c : Char}
      (h : extend state byte = .unfinished next) (onward : Ends next rest c) :
      Ends state (byte :: rest) c

theorem exists_ends_of_scanFrom {state : Unfinished} {bytes : Bytes} {text : Text}
    (h : scanFrom (some state) bytes = text.map some) :
    ∃ c later tail rest, text = c :: later ∧ bytes = tail ++ rest ∧ state.Ends tail c ∧
      scanFrom none rest = later.map some := by
  induction bytes generalizing state with
  | nil =>
      rw [scanFrom] at h
      cases text with
      | nil => cases h
      | cons c later => cases (List.cons.inj h).1
  | cons byte rest ih =>
      rw [scanFrom] at h
      split at h
      next c hdone =>
        cases text with
        | nil => cases h
        | cons first later =>
            obtain ⟨hfirst, hrest⟩ := List.cons.inj h
            obtain rfl := Option.some.inj hfirst
            exact ⟨c, later, [byte], rest, rfl, rfl, .last hdone, hrest⟩
      next next hnext =>
        obtain ⟨c, later, tail, back, htext, rfl, hends, hback⟩ := ih h
        exact ⟨c, later, byte :: tail, back, htext, rfl, .more hnext hends, hback⟩
      · cases text with
        | nil => cases h
        | cons c later => cases (List.cons.inj h).1

theorem extend_eq_done {state : Unfinished} {byte : UInt8} {c : Char}
    (h : extend state byte = .done c) :
    (state.low ≤ byte.toNat ∧ byte.toNat ≤ state.high) ∧ state.more = 0 ∧
      c = Char.ofNat (state.value * 64 + (byte.toNat - 0x80)) := by
  simp only [extend] at h
  split at h
  next hrange =>
    split at h
    next hmore => exact ⟨hrange, hmore, (Reading.done.inj h).symm⟩
    · cases h
  · cases h

theorem extend_eq_unfinished {state next : Unfinished} {byte : UInt8}
    (h : extend state byte = .unfinished next) :
    (state.low ≤ byte.toNat ∧ byte.toNat ≤ state.high) ∧ state.more = next.more + 1 ∧
      next.value = state.value * 64 + (byte.toNat - 0x80) ∧ next.low = 0x80 ∧ next.high = 0xBF := by
  simp only [extend] at h
  split at h
  next hrange =>
    split at h
    · cases h
    next more hmore =>
      obtain rfl := Reading.unfinished.inj h
      exact ⟨hrange, hmore, rfl, rfl, rfl⟩
  · cases h

theorem start_eq_done {byte : UInt8} {c : Char} (h : start byte = .done c) :
    byte.toNat < 0x80 ∧ c = Char.ofNat byte.toNat := by
  simp only [start] at h
  split at h
  next hsmall => exact ⟨hsmall, (Reading.done.inj h).symm⟩
  · repeat' split at h
    all_goals cases h

/-- What is read off the first of two, three or four bytes. -/
theorem start_eq_unfinished {byte : UInt8} {state : Unfinished}
    (h : start byte = .unfinished state) :
    (state.more = 0 ∧ byte.toNat = 0xC0 + state.value ∧ 2 ≤ state.value ∧ state.value < 32 ∧
      state.low = 0x80 ∧ state.high = 0xBF) ∨
    (state.more = 1 ∧ byte.toNat = 0xE0 + state.value ∧ state.value < 16 ∧
      (state.value = 0 → state.low = 0xA0) ∧ 0x80 ≤ state.low ∧ 
      (state.value = 13 → state.high = 0x9F) ∧ state.high ≤ 0xBF) ∨
    (state.more = 2 ∧ byte.toNat = 0xF0 + state.value ∧ state.value < 5 ∧
      (state.value = 0 → state.low = 0x90) ∧ 0x80 ≤ state.low ∧ 
      (state.value = 4 → state.high = 0x8F) ∧ state.high ≤ 0xBF) := by
  simp only [start] at h
  generalize byte.toNat = b at h ⊢
  split at h
  · cases h
  split at h
  · cases h
  iterate 7
    split at h
    · have same := Reading.unfinished.inj h
      clear h
      subst same
      dsimp only
      omega
  · cases h

theorem toNat_ofNat_of_valid {n : Nat} (h : n < 0xD800 ∨ 0xDFFF < n ∧ n < 0x110000) :
    (Char.ofNat n).toNat = n := by
  rw [Char.ofNat, dif_pos h]
  rfl

theorem ofNat_eq_of_toNat {byte : UInt8} {n : Nat} (h : byte.toNat = n) : UInt8.ofNat n = byte := by
  rw [← h, UInt8.ofNat_toNat]

/-- The bytes that are read as one character are the bytes of that character. -/
theorem encodeChar_of_ends {byte : UInt8} {state : Unfinished} {tail : Bytes} {c : Char}
    (hstart : start byte = .unfinished state) (hends : state.Ends tail c) :
    encodeChar c = byte :: tail := by
  have hfirst := start_eq_unfinished hstart
  cases hends with
  | last hlast =>
      obtain ⟨hrange, hmore, hc⟩ := extend_eq_done hlast
      rw [hc, encodeChar, toNat_ofNat_of_valid (by omega)]
      rw [if_neg (by omega), if_pos (by omega), List.cons.injEq, List.cons.injEq]
      exact ⟨ofNat_eq_of_toNat (by omega), ofNat_eq_of_toNat (by omega), rfl⟩
  | more hsecond onward =>
      obtain ⟨hrange, hmore, hvalue, hlow, hhigh⟩ := extend_eq_unfinished hsecond
      cases onward with
      | last hlast =>
          obtain ⟨hrange', hmore', hc⟩ := extend_eq_done hlast
          rw [hc, encodeChar, toNat_ofNat_of_valid (by omega)]
          rw [if_neg (by omega), if_neg (by omega), if_pos (by omega), List.cons.injEq,
            List.cons.injEq, List.cons.injEq]
          exact ⟨ofNat_eq_of_toNat (by omega), ofNat_eq_of_toNat (by omega),
            ofNat_eq_of_toNat (by omega), rfl⟩
      | more hthird onward =>
          obtain ⟨hrange', hmore', hvalue', hlow', hhigh'⟩ := extend_eq_unfinished hthird
          cases onward with
          | last hlast =>
              obtain ⟨hrange'', hmore'', hc⟩ := extend_eq_done hlast
              rw [hc, encodeChar, toNat_ofNat_of_valid (by omega)]
              rw [if_neg (by omega), if_neg (by omega), if_neg (by omega), List.cons.injEq,
                List.cons.injEq, List.cons.injEq, List.cons.injEq]
              exact ⟨ofNat_eq_of_toNat (by omega), ofNat_eq_of_toNat (by omega),
                ofNat_eq_of_toNat (by omega), ofNat_eq_of_toNat (by omega), rfl⟩
          | more hfourth =>
              have hmore'' := (extend_eq_unfinished hfourth).2.1
              omega

/-- Bytes that are read without a gap start with the bytes of the first character. -/
theorem exists_encodeChar_of_scanFrom {byte : UInt8} {rest : Bytes} {text : Text}
    (h : scanFrom none (byte :: rest) = text.map some) :
    ∃ c later back, text = c :: later ∧ byte :: rest = encodeChar c ++ back ∧
      scanFrom none back = later.map some := by
  cases hstart : start byte with
  | done c =>
      rw [scanFrom_of_done hstart] at h
      obtain ⟨first, later, rfl, hfirst, hlater⟩ := List.map_eq_cons_iff.1 h.symm
      obtain rfl := Option.some.inj hfirst
      obtain ⟨hsmall, hchar⟩ := start_eq_done hstart
      refine ⟨first, later, rest, rfl, ?_, hlater.symm⟩
      rw [hchar, encodeChar, toNat_ofNat_of_valid (by omega), if_pos hsmall,
        ofNat_eq_of_toNat rfl, List.singleton_append]
  | unfinished state =>
      rw [scanFrom_of_unfinished hstart] at h
      obtain ⟨c, later, tail, back, htext, rfl, hends, hback⟩ := exists_ends_of_scanFrom h
      refine ⟨c, later, back, htext, ?_, hback⟩
      rw [encodeChar_of_ends hstart hends, List.cons_append]
  | refused =>
      simp only [scanFrom, fresh, hstart, List.singleton_append] at h
      obtain ⟨first, later, -, hfirst, -⟩ := List.map_eq_cons_iff.1 h.symm
      cases hfirst

theorem eq_encode_of_scanFrom {bytes : Bytes} {text : Text}
    (h : scanFrom none bytes = text.map some) : bytes = encode text := by
  induction text generalizing bytes with
  | nil =>
      cases bytes with
      | nil => rfl
      | cons byte rest =>
          obtain ⟨_, _, _, htext, -⟩ := exists_encodeChar_of_scanFrom h
          cases htext
  | cons c later ih =>
      cases bytes with
      | nil => cases h
      | cons byte rest =>
          obtain ⟨_, _, back, htext, hbytes, hback⟩ := exists_encodeChar_of_scanFrom h
          cases htext
          rw [hbytes, ih hback]
          rfl

theorem eq_map_some_of_mapM {found : List (Option Char)} {text : Text}
    (h : found.mapM id = some text) : found = text.map some := by
  induction found generalizing text with
  | nil =>
      obtain rfl : [] = text := Option.some.inj h
      rfl
  | cons first rest ih =>
      rw [List.mapM_cons] at h
      obtain ⟨c, rfl, hrest⟩ := Option.bind_eq_some_iff.1 h
      obtain ⟨later, hlater, htext⟩ := Option.bind_eq_some_iff.1 hrest
      obtain rfl : c :: later = text := Option.some.inj htext
      rw [ih hlater, List.map_cons]

/-- Bytes spell exactly the text of which they are the encoding, if there is one. -/
theorem decode?_eq_some_iff {bytes : Bytes} {text : Text} :
    decode? bytes = some text ↔ bytes = encode text := by
  refine ⟨fun h => eq_encode_of_scanFrom (eq_map_some_of_mapM h), ?_⟩
  rintro rfl
  exact decode?_encode text

end LicenseStamp.Utf8
