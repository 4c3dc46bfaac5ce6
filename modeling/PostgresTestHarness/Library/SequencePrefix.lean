import Mathlib.Data.Finset.Card
import Mathlib.Data.Finset.Insert

/-! A set of completed sequence numbers as a contiguous prefix and what lies beyond it.

Numbers start at one and complete in any order. `through` says that every number up
to it is complete; `beyond` holds the ones that completed early. Completing the next
number closes gaps: `catchUp` absorbs the numbers that were waiting behind it. -/
namespace SequencePrefix

/-- Absorb the numbers right behind the prefix, one at a time. Every step removes a
number from `beyond`, so its size is fuel enough. -/
def catchUp : Nat → Nat → Finset Nat → Nat × Finset Nat
  | 0, through, beyond => (through, beyond)
  | fuel + 1, through, beyond =>
    if through + 1 ∈ beyond then catchUp fuel (through + 1) (beyond.erase (through + 1))
    else (through, beyond)

/-- The pair stands for the set `done`, with the prefix as long as it can be. -/
structure Represents (through : Nat) (beyond : Finset Nat) (done : Nat → Prop) : Prop where
  mem : ∀ n, done n ↔ (1 ≤ n ∧ n ≤ through) ∨ n ∈ beyond
  above : ∀ n ∈ beyond, through < n
  gap : through + 1 ∉ beyond

theorem represents_empty : Represents 0 ∅ (fun _ => False) where
  mem n := by
    constructor
    · exact False.elim
    · intro hcase
      rcases hcase with ⟨h, h'⟩ | h
      · omega
      · exact absurd h (Finset.notMem_empty n)
  above n h := absurd h (Finset.notMem_empty n)
  gap := Finset.notMem_empty 1

/-- Catching up changes the split, never the set, and ends at a gap. -/
theorem catchUp_represents (fuel through : Nat) (beyond : Finset Nat) (done : Nat → Prop)
    (hfuel : beyond.card ≤ fuel) (hmem : ∀ n, done n ↔ (1 ≤ n ∧ n ≤ through) ∨ n ∈ beyond)
    (habove : ∀ n ∈ beyond, through < n) :
    Represents (catchUp fuel through beyond).1 (catchUp fuel through beyond).2 done := by
  induction fuel generalizing through beyond with
  | zero =>
    have hempty : beyond = ∅ := Finset.card_eq_zero.mp (Nat.le_zero.mp hfuel)
    subst hempty
    exact ⟨hmem, habove, Finset.notMem_empty _⟩
  | succ fuel ih =>
    unfold catchUp
    by_cases hnext : through + 1 ∈ beyond
    · rw [if_pos hnext]
      apply ih
      · rw [Finset.card_erase_of_mem hnext]
        omega
      · intro n
        rw [hmem n, Finset.mem_erase]
        constructor
        · intro hcase
          rcases hcase with h | h
          · exact Or.inl ⟨h.1, by omega⟩
          · by_cases hn : n = through + 1
            · exact Or.inl ⟨by omega, by omega⟩
            · exact Or.inr ⟨hn, h⟩
        · intro hcase
          rcases hcase with h | h
          · by_cases hn : n = through + 1
            · exact Or.inr (hn ▸ hnext)
            · exact Or.inl ⟨h.1, by omega⟩
          · exact Or.inr h.2
      · intro n hn
        rw [Finset.mem_erase] at hn
        have := habove n hn.2
        have := hn.1
        omega
    · rw [if_neg hnext]
      exact ⟨hmem, habove, hnext⟩

/-- Completing the number right behind the prefix. -/
theorem Represents.next {through : Nat} {beyond : Finset Nat} {done : Nat → Prop}
    (h : Represents through beyond done) :
    Represents (catchUp beyond.card (through + 1) beyond).1
      (catchUp beyond.card (through + 1) beyond).2 (fun n => done n ∨ n = through + 1) := by
  apply catchUp_represents
  · exact Nat.le_refl _
  · intro n
    rw [h.mem n]
    constructor
    · intro hcase
      rcases hcase with (hn | hn) | hn
      · exact Or.inl ⟨hn.1, by omega⟩
      · exact Or.inr hn
      · exact Or.inl ⟨by omega, by omega⟩
    · intro hcase
      rcases hcase with hn | hn
      · by_cases he : n = through + 1
        · exact Or.inr he
        · exact Or.inl (Or.inl ⟨hn.1, by omega⟩)
      · exact Or.inl (Or.inr hn)
  · intro n hn
    have habove := h.above n hn
    have hne : n ≠ through + 1 := fun he => h.gap (he ▸ hn)
    omega

/-- Completing a number further out. -/
theorem Represents.beyond {through : Nat} {beyond : Finset Nat} {done : Nat → Prop}
    (h : Represents through beyond done) {k : Nat} (hk : through + 1 < k) :
    Represents through (insert k beyond) (fun n => done n ∨ n = k) where
  mem n := by
    rw [h.mem n, Finset.mem_insert]
    tauto
  above n hn := by
    rcases Finset.mem_insert.mp hn with rfl | hn
    · omega
    · exact h.above n hn
  gap hn := by
    rcases Finset.mem_insert.mp hn with he | hn
    · omega
    · exact h.gap hn

/-- Everything at or below the prefix is done. -/
theorem Represents.done_of_le {through : Nat} {beyond : Finset Nat} {done : Nat → Prop}
    (h : Represents through beyond done) {n : Nat} (h1 : 1 ≤ n) (hn : n ≤ through) : done n :=
  (h.mem n).mpr (Or.inl ⟨h1, hn⟩)

end SequencePrefix
