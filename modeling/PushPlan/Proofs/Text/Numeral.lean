import PushPlan.Text.Numeral

/-!
# PushPlan.Proofs.Text.Numeral

Decimal numerals of any length.

1. Digits behind others make the number larger or leave it as it is, so the
   first value that reaches a limit decides: digits are read as the number that
   they spell if it is below the limit, and are refused otherwise.  Nothing
   wraps.
2. A count is read exactly from the digits that spell it, perhaps behind a plus
   sign (`SpellsCount`).
3. An integer that is read from a text fits a signed word of 64 bits.

This module depends only on the Lean 4 core library.
-/

namespace PushPlan.Text

/-! ## Digits -/

/-- The number that digits spell behind digits worth `value`. -/
def numberFrom (value : Nat) (digits : List Char) : Nat :=
  digits.foldl (fun n c => 10 * n + (digit? c).getD 0) value

theorem numberFrom_zero (digits : List Char) : numberFrom 0 digits = numberOf digits := rfl

theorem le_numberFrom (value : Nat) (digits : List Char) : value ≤ numberFrom value digits := by
  induction digits generalizing value with
  | nil => exact Nat.le_refl value
  | cons c digits ih =>
      have hstep : value ≤ 10 * value + (digit? c).getD 0 := by omega
      exact Nat.le_trans hstep (ih _)

/-- **Digits of any length** are read as the number that they spell, if it is below the limit. -/
theorem readDigits_eq {limit value : Nat} {cs : List Char} (hdigits : ∀ c ∈ cs, isDigit c = true)
    (hvalue : value < limit) :
    readDigits limit value cs =
      if numberFrom value cs < limit then .ok (numberFrom value cs) else .error .tooLarge := by
  induction cs generalizing value with
  | nil => simp [readDigits, numberFrom, hvalue]
  | cons c cs ih =>
      obtain ⟨d, hd⟩ := Option.isSome_iff_exists.1 (hdigits c List.mem_cons_self)
      have hnumber : numberFrom value (c :: cs) = numberFrom (value * 10 + d) cs := by
        simp [numberFrom, hd, Nat.mul_comm]
      simp only [readDigits, hd, hnumber]
      by_cases hnext : value * 10 + d < limit
      · rw [if_pos hnext]
        exact ih (fun e he => hdigits e (List.mem_cons_of_mem c he)) hnext
      · -- All that follows only adds to the value.
        have hle := le_numberFrom (value * 10 + d) cs
        rw [if_neg hnext, if_neg (by omega)]

/-- Digits that are read spell the number, which is below the limit. -/
theorem readDigits_eq_ok_iff {limit value n : Nat} {cs : List Char} (hvalue : value < limit) :
    readDigits limit value cs = .ok n ↔
      (∀ c ∈ cs, isDigit c = true) ∧ numberFrom value cs = n ∧ n < limit := by
  constructor
  · intro h
    have hdigits : ∀ c ∈ cs, isDigit c = true := by
      clear hvalue
      induction cs generalizing value with
      | nil => simp
      | cons c cs ih =>
          rw [readDigits] at h
          split at h
          · contradiction
          · next d hd =>
              split at h
              · exact List.forall_mem_cons.2 ⟨by rw [isDigit, hd]; rfl, ih h⟩
              · contradiction
    rw [readDigits_eq hdigits hvalue] at h
    split at h
    · next hlt =>
        cases h
        exact ⟨hdigits, rfl, hlt⟩
    · contradiction
  · intro h
    obtain ⟨hdigits, rfl, hlt⟩ := h
    rw [readDigits_eq hdigits hvalue, if_pos hlt]

/-! ## Counts -/

/-- Digits, perhaps behind a plus sign, spell a number. -/
def SpellsCount (cs : List Char) (n : Nat) : Prop :=
  ∃ digits, (cs = digits ∨ cs = '+' :: digits) ∧ digits ≠ [] ∧
    (∀ c ∈ digits, isDigit c = true) ∧ numberOf digits = n

theorem readCount_plus {digits : List Char} (h : digits ≠ []) :
    readCount ('+' :: digits) = (readDigits Word.limit32 0 digits).map UInt32.ofNat := by
  cases digits with
  | nil => contradiction
  | cons c rest => rfl

theorem readCount_of_no_plus {cs : List Char} (hne : cs ≠ []) (h : cs.head? ≠ some '+') :
    readCount cs = (readDigits Word.limit32 0 cs).map UInt32.ofNat := by
  unfold readCount
  split
  · simp at h
  · cases cs with
    | nil => contradiction
    | cons c rest => rfl

theorem map_ofNat_readDigits_eq_ok_iff {cs : List Char} {n : UInt32} :
    (readDigits Word.limit32 0 cs).map UInt32.ofNat = .ok n ↔
      (∀ c ∈ cs, isDigit c = true) ∧ numberOf cs = n.toNat := by
  have hlimit : 0 < Word.limit32 := by decide
  constructor
  · intro h
    cases hread : readDigits Word.limit32 0 cs with
    | error e =>
        rw [hread] at h
        contradiction
    | ok k =>
        obtain ⟨hdigits, hnumber, hlt⟩ := (readDigits_eq_ok_iff hlimit).1 hread
        rw [hread] at h
        have hk : UInt32.ofNat k = n := Except.ok.inj h
        rw [← hk, UInt32.toNat_ofNat_of_lt' hlt, ← hnumber, numberFrom_zero]
        exact ⟨hdigits, rfl⟩
  · intro h
    obtain ⟨hdigits, hnumber⟩ := h
    have hread : readDigits Word.limit32 0 cs = .ok n.toNat :=
      (readDigits_eq_ok_iff hlimit).2 ⟨hdigits, hnumber, n.toNat_lt⟩
    rw [hread]
    exact congrArg Except.ok n.ofNat_toNat

/-- **Counts** are read exactly when digits spell them, perhaps behind a plus sign. -/
theorem readCount_eq_ok_iff {cs : List Char} {n : UInt32} :
    readCount cs = .ok n ↔ SpellsCount cs n.toNat := by
  constructor
  · intro h
    by_cases hplus : cs.head? = some '+'
    · obtain ⟨digits, rfl⟩ := List.head?_eq_some_iff.1 hplus
      cases digits with
      | nil => contradiction
      | cons c rest =>
          rw [readCount_plus (List.cons_ne_nil c rest)] at h
          have hdigits := map_ofNat_readDigits_eq_ok_iff.1 h
          exact ⟨c :: rest, .inr rfl, List.cons_ne_nil c rest, hdigits⟩
    · cases cs with
      | nil => contradiction
      | cons c rest =>
          rw [readCount_of_no_plus (List.cons_ne_nil c rest) hplus] at h
          have hdigits := map_ofNat_readDigits_eq_ok_iff.1 h
          exact ⟨c :: rest, .inl rfl, List.cons_ne_nil c rest, hdigits⟩
  · intro h
    obtain ⟨digits, hcs, hne, hdigits⟩ := h
    rcases hcs with rfl | rfl
    · -- A plus sign is no digit.
      have hplus : cs.head? ≠ some '+' := by
        intro hhead
        have hplus := hdigits.1 '+' (List.mem_of_mem_head? hhead)
        contradiction
      rw [readCount_of_no_plus hne hplus, map_ofNat_readDigits_eq_ok_iff]
      exact hdigits
    · rw [readCount_plus hne, map_ofNat_readDigits_eq_ok_iff]
      exact hdigits

/-- What is refused spells no count. -/
theorem not_spellsCount_of_error {cs : List Char} {e : NumeralError}
    (h : readCount cs = .error e) (n : UInt32) : ¬ SpellsCount cs n.toNat := by
  intro hspells
  rw [readCount_eq_ok_iff.2 hspells] at h
  contradiction

/-! ## Chunks and integers -/

/-- A chunk number is what the digits spell, unless that needs more than 63 bits. -/
theorem readChunk?_eq {cs : List Char} (hne : cs ≠ []) (hdigits : ∀ c ∈ cs, isDigit c = true) :
    readChunk? cs = if numberOf cs < Word.signedLimit then some (numberOf cs : Int) else none := by
  have hlimit : 0 < Word.signedLimit := by decide
  have hempty : ¬ cs.isEmpty = true := by simpa using hne
  rw [readChunk?, if_neg hempty, readDigits_eq hdigits hlimit, numberFrom_zero]
  split <;> rfl

theorem lt_of_toOption_readDigits {limit n : Nat} {cs : List Char} (hlimit : 0 < limit)
    (h : (readDigits limit 0 cs).toOption = some n) : n < limit := by
  cases hread : readDigits limit 0 cs with
  | error e => simp [hread, Except.toOption] at h
  | ok k =>
      have hk : k = n := by simpa [hread, Except.toOption] using h
      exact hk ▸ readDigits_lt hlimit hread

/-- An integer that is read fits a signed word of 64 bits. -/
theorem readInteger?_lt {cs : List Char} {n : Int} (h : readInteger? cs = some n) :
    n < Word.signedLimit := by
  unfold readInteger? at h
  split at h
  · contradiction
  · obtain ⟨k, hk, rfl⟩ := Option.map_eq_some_iff.1 h
    obtain ⟨j, _, hj⟩ := Option.bind_eq_some_iff.1 hk
    have hnatural : (j : Int) = k := Option.some.inj hj
    have hlimit : (0 : Int) < Word.signedLimit := by decide
    omega
  · obtain ⟨k, hk, rfl⟩ := Option.map_eq_some_iff.1 h
    exact Int.ofNat_lt.2 (lt_of_toOption_readDigits (by decide) hk)
  · obtain ⟨k, hk, rfl⟩ := Option.map_eq_some_iff.1 h
    exact Int.ofNat_lt.2 (lt_of_toOption_readDigits (by decide) hk)

end PushPlan.Text
