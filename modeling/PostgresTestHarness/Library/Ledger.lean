import Mathlib.Algebra.BigOperators.Group.List.Basic
import Mathlib.Algebra.Ring.Nat
import Mathlib.Data.List.Count
import Mathlib.Data.List.Flatten
import Mathlib.Data.List.Nodup
import Mathlib.Data.List.Perm.Basic
import Mathlib.Data.List.Range

/-! Counting tokens that move between lists.

A ledger invariant says how often a token occurs over several lists together. Each
step moves tokens, so its proof is arithmetic on `count`; these are the facts about
`count` and the list operations a step uses, for lists of holders that each carry
some tokens. -/
namespace Ledger
variable {α β : Type*}

/-- Replacing a holder by one that carries the same tokens. -/
theorem flatMap_set_of_eq (f : α → List β) {l : List α} {i : Nat} {x y : α} (h : l[i]? = some x)
    (hf : f y = f x) : (l.set i y).flatMap f = l.flatMap f := by
  induction l generalizing i with
  | nil => simp at h
  | cons a rest ih =>
    cases i with
    | zero =>
      simp only [List.getElem?_cons_zero, Option.some.injEq] at h
      rw [List.set_cons_zero, List.flatMap_cons, List.flatMap_cons, hf, h]
    | succ i =>
      simp only [List.getElem?_cons_succ] at h
      rw [List.set_cons_succ, List.flatMap_cons, List.flatMap_cons, ih h]

/-- Replacing one holder changes a count by that holder alone. -/
theorem countP_set (p : α → Bool) {l : List α} {i : Nat} {x : α} (y : α) (h : l[i]? = some x) :
    (l.set i y).countP p + (if p x = true then 1 else 0) =
      l.countP p + if p y = true then 1 else 0 := by
  obtain ⟨hi, rfl⟩ := List.getElem?_eq_some_iff.mp h
  rw [List.countP_set hi]
  have : p l[i] = true → 0 < l.countP p := fun hp =>
    List.countP_pos_iff.mpr ⟨_, List.getElem_mem hi, hp⟩
  split_ifs with hx hy <;> simp_all

/-- What at most one element has stands at one place. -/
theorem eq_of_countP_le_one {p : α → Bool} {l : List α} (h : l.countP p ≤ 1) {i j : Nat} {x y : α}
    (hi : l[i]? = some x) (hx : p x = true) (hj : l[j]? = some y) (hy : p y = true) : i = j := by
  induction l generalizing i j with
  | nil => cases hi
  | cons a rest ih =>
    have htail : p a = true → ∀ (k : Nat) (z : α), rest[k]? = some z → p z = true → False := by
      intro ha k z hz hp
      rw [List.countP_cons_of_pos ha] at h
      have hpos := List.countP_pos_iff.mpr ⟨z, List.mem_of_getElem? hz, hp⟩
      omega
    cases i with
    | zero =>
      cases hi
      cases j with
      | zero => rfl
      | succ j => exact (htail hx j y hj hy).elim
    | succ i =>
      cases j with
      | zero =>
        cases hj
        exact (htail hy i x hi hx).elim
      | succ j =>
        have hle : rest.countP p ≤ (a :: rest).countP p := (List.sublist_cons_self a rest).countP_le
        exact congrArg Nat.succ (ih (Nat.le_trans hle h) hi hj)

section Sum

/-- Replacing one holder changes a sum by the difference. -/
theorem sum_map_set (f : α → Nat) {l : List α} {i : Nat} {x : α} (y : α) (h : l[i]? = some x) :
    ((l.set i y).map f).sum + f x = (l.map f).sum + f y := by
  induction l generalizing i with
  | nil => cases h
  | cons a rest ih =>
    cases i with
    | zero =>
      rw [List.getElem?_cons_zero, Option.some.injEq] at h
      simp only [List.set_cons_zero, List.map_cons, List.sum_cons, h]
      omega
    | succ i =>
      have := ih h
      simp only [List.set_cons_succ, List.map_cons, List.sum_cons]
      omega

/-- Removing one holder lowers a sum by its share. -/
theorem sum_map_eraseIdx (f : α → Nat) {l : List α} {i : Nat} {x : α} (h : l[i]? = some x) :
    ((l.eraseIdx i).map f).sum + f x = (l.map f).sum := by
  obtain ⟨hi, rfl⟩ := List.getElem?_eq_some_iff.mp h
  have hperm := ((List.getElem_cons_eraseIdx_perm hi).map f).sum_eq
  rw [List.map_cons, List.sum_cons] at hperm
  omega

end Sum

section Count
variable [BEq β]

/-- Replacing one holder moves exactly the tokens it carried. -/
theorem count_flatMap_set (f : α → List β) (b : β) (l : List α) (i : Nat) (x y : α)
    (h : l[i]? = some x) :
    ((l.set i y).flatMap f).count b + (f x).count b = (l.flatMap f).count b + (f y).count b := by
  induction l generalizing i with
  | nil => simp at h
  | cons a rest ih =>
    cases i with
    | zero =>
      simp only [List.getElem?_cons_zero, Option.some.injEq] at h
      subst h
      simp only [List.set_cons_zero, List.flatMap_cons, List.count_append]
      omega
    | succ i =>
      simp only [List.getElem?_cons_succ] at h
      have := ih i h
      simp only [List.set_cons_succ, List.flatMap_cons, List.count_append]
      omega

/-- Removing one holder removes exactly the tokens it carried. -/
theorem count_flatMap_eraseIdx (f : α → List β) (b : β) (l : List α) (i : Nat) (x : α)
    (h : l[i]? = some x) :
    ((l.eraseIdx i).flatMap f).count b + (f x).count b = (l.flatMap f).count b := by
  induction l generalizing i with
  | nil => simp at h
  | cons a rest ih =>
    cases i with
    | zero =>
      simp only [List.getElem?_cons_zero, Option.some.injEq] at h
      subst h
      simp only [List.eraseIdx_cons_zero, List.flatMap_cons, List.count_append]
      omega
    | succ i =>
      simp only [List.getElem?_cons_succ] at h
      have := ih i h
      simp only [List.eraseIdx_cons_succ, List.flatMap_cons, List.count_append]
      omega

/-- A partition keeps every token on one side or the other. -/
theorem count_map_filter_add_not (f : α → β) (b : β) (p : α → Bool) (l : List α) :
    ((l.filter p).map f).count b + ((l.filter fun x => !p x).map f).count b =
      (l.map f).count b := by
  induction l with
  | nil => rfl
  | cons a rest ih =>
    cases hp : p a <;> simp only [List.filter_cons, hp, Bool.not_true, Bool.not_false,
      if_true, Bool.false_eq_true, if_false, List.map_cons, List.count_cons] <;> omega

/-- What a holder carries is counted. -/
theorem count_flatMap_pos [LawfulBEq β] (f : α → List β) {b : β} {l : List α} {i : Nat} {x : α}
    (h : l[i]? = some x) (hb : b ∈ f x) : 0 < (l.flatMap f).count b := by
  rw [List.count_pos_iff, List.mem_flatMap]
  exact ⟨x, List.mem_of_getElem? h, hb⟩

/-- Removing the one holder with a given key removes the tokens it carried. -/
theorem count_flatMap_filter_key {κ : Type*} [DecidableEq κ] (f : α → List β) (key : α → κ) (k : κ)
    (b : β) (l : List α) (x : α) (hnodup : (l.map key).Nodup)
    (h : l.find? (fun a => key a == k) = some x) :
    ((l.filter fun a => !(key a == k)).flatMap f).count b + (f x).count b =
      (l.flatMap f).count b := by
  induction l with
  | nil => simp at h
  | cons a rest ih =>
    rw [List.map_cons, List.nodup_cons] at hnodup
    by_cases ha : key a = k
    · have hx : a = x := by simpa [ha] using h
      have hkey : (key a == k) = true := beq_iff_eq.mpr ha
      have hrest : rest.filter (fun a => !(key a == k)) = rest := by
        apply List.filter_eq_self.mpr
        intro c hc
        have hne : key c ≠ k := fun he => hnodup.1 (ha ▸ he ▸ List.mem_map_of_mem hc)
        simp [hne]
      rw [List.filter_cons, hkey]
      simp only [Bool.not_true, Bool.false_eq_true, if_false, hrest, List.flatMap_cons,
        List.count_append, hx]
      omega
    · have hfind : rest.find? (fun a => key a == k) = some x := by simpa [ha] using h
      have := ih hnodup.2 hfind
      simp only [List.filter_cons, beq_eq_false_iff_ne.mpr ha, Bool.not_false, if_true,
        List.flatMap_cons, List.count_append]
      omega

end Count

/-- Consecutive numbers, each once. -/
theorem count_range' (a n q : Nat) :
    (List.range' a n).count q = if a ≤ q ∧ q < a + n then 1 else 0 := by
  rw [List.Nodup.count List.nodup_range']
  simp only [List.mem_range'_1]

/-- A holder that keeps a token can replace the one that carried it. -/
theorem mem_flatMap_set (f : α → List β) {l : List α} {i : Nat} {x y : α} {b : β}
    (h : l[i]? = some x) (hkeep : b ∈ f x → b ∈ f y) (hb : b ∈ l.flatMap f) :
    b ∈ (l.set i y).flatMap f := by
  obtain ⟨a, ha, hb⟩ := List.mem_flatMap.mp hb
  obtain ⟨hi, _⟩ := List.getElem?_eq_some_iff.mp h
  obtain ⟨k, hk⟩ := List.mem_iff_getElem?.mp ha
  rw [List.mem_flatMap]
  by_cases hki : i = k
  · subst hki
    rw [h, Option.some.injEq] at hk
    exact ⟨y, List.mem_set hi y, hkeep (hk ▸ hb)⟩
  · refine ⟨a, List.mem_iff_getElem?.mpr ⟨k, ?_⟩, hb⟩
    rw [List.getElem?_set_ne hki]
    exact hk

/-- What a removed holder did not carry stays. -/
theorem mem_flatMap_eraseIdx (f : α → List β) {l : List α} {i : Nat} {x : α} {b : β}
    (h : l[i]? = some x) (hb : b ∈ l.flatMap f) : b ∈ f x ∨ b ∈ (l.eraseIdx i).flatMap f := by
  obtain ⟨hi, rfl⟩ := List.getElem?_eq_some_iff.mp h
  have hperm := ((List.getElem_cons_eraseIdx_perm hi).flatMap_right f).mem_iff.mpr hb
  rwa [List.flatMap_cons, List.mem_append] at hperm

/-- Holders of at most one token each. -/
theorem length_flatMap_le (f : α → List β) (h : ∀ x, (f x).length ≤ 1) (l : List α) :
    (l.flatMap f).length ≤ l.length := by
  induction l with
  | nil => exact Nat.le_refl 0
  | cons a rest ih =>
    have := h a
    rw [List.flatMap_cons, List.length_append, List.length_cons]
    omega

/-- Replacing an element by one that answers alike. -/
theorem any_set_of_eq (p : α → Bool) {l : List α} {i : Nat} {x y : α} (h : l[i]? = some x)
    (hp : p y = p x) : (l.set i y).any p = l.any p := by
  induction l generalizing i with
  | nil => rfl
  | cons a rest ih =>
    cases i with
    | zero =>
      rw [List.getElem?_cons_zero, Option.some.injEq] at h
      rw [List.set_cons_zero, List.any_cons, List.any_cons, hp, h]
    | succ n =>
      rw [List.getElem?_cons_succ] at h
      rw [List.set_cons_succ, List.any_cons, List.any_cons, ih h]

/-- Replacing an element by one that is counted. -/
theorem any_set_of_true (p : α → Bool) {l : List α} {i : Nat} {x y : α} (h : l[i]? = some x)
    (hp : p y = true) : (l.set i y).any p = true :=
  List.any_eq_true.mpr ⟨y, List.mem_set (List.getElem?_eq_some_iff.mp h).1 y, hp⟩

theorem length_eraseIdx {l : List α} {i : Nat} {x : α} (h : l[i]? = some x) :
    (l.eraseIdx i).length + 1 = l.length := by
  obtain ⟨hi, _⟩ := List.getElem?_eq_some_iff.mp h
  rw [List.length_eraseIdx_of_lt hi]
  omega

/-- What was in a list is still there, or was removed. -/
theorem mem_eraseIdx_or {l : List α} {i : Nat} {x y : α} (h : l[i]? = some x) (hy : y ∈ l) :
    y = x ∨ y ∈ l.eraseIdx i := by
  obtain ⟨hi, rfl⟩ := List.getElem?_eq_some_iff.mp h
  exact List.mem_cons.mp ((List.getElem_cons_eraseIdx_perm hi).mem_iff.mpr hy)

theorem mem_of_set {l : List α} {i : Nat} {x y : α} (h : x ∈ l.set i y) : x = y ∨ x ∈ l :=
  (List.mem_or_eq_of_mem_set h).symm

section Lookup
variable {xs : List α} {new found : α} {i q : Nat}

/-- What stands at a place of a list after one place was replaced. -/
theorem getElem?_set_cases (h : (xs.set i new)[q]? = some found) :
    (q = i ∧ found = new) ∨ (q ≠ i ∧ xs[q]? = some found) := by
  by_cases hqi : q = i
  · subst hqi
    have hlt := (List.getElem?_eq_some_iff.mp h).1
    rw [List.length_set] at hlt
    rw [List.getElem?_set_self hlt, Option.some.injEq] at h
    exact Or.inl ⟨rfl, h.symm⟩
  · rw [List.getElem?_set_ne (Ne.symm hqi)] at h
    exact Or.inr ⟨hqi, h⟩

/-- What stands at a place of a list after one more was added. -/
theorem getElem?_concat_cases (h : (xs ++ [new])[q]? = some found) :
    (q = xs.length ∧ found = new) ∨ xs[q]? = some found := by
  rw [List.getElem?_append] at h
  split at h
  · exact Or.inr h
  · rename_i hge
    obtain ⟨hlt, hget⟩ := List.getElem?_eq_some_iff.mp h
    rw [List.length_singleton] at hlt
    refine Or.inl ⟨by omega, ?_⟩
    rw [List.getElem_singleton] at hget
    exact hget.symm

/-- A place that is filled stays filled when another is added. -/
theorem getElem?_concat_of_some (h : xs[q]? = some found) : (xs ++ [new])[q]? = some found := by
  rw [List.getElem?_append_left (List.getElem?_eq_some_iff.mp h).1]
  exact h

theorem getElem?_set_of_some (h : xs[i]? = some found) : (xs.set i new)[i]? = some new :=
  List.getElem?_set_self (List.getElem?_eq_some_iff.mp h).1

/-- What one replacement keeps of its place is kept of every place. -/
theorem kept_of_set (f : α → β) {old : α} (h : xs[i]? = some old) (hf : f new = f old)
    (hq : (xs.set i new)[q]? = some found) : ∃ before, xs[q]? = some before ∧ f found = f before := by
  obtain ⟨rfl, rfl⟩ | ⟨_, hq⟩ := getElem?_set_cases hq
  · exact ⟨old, h, hf⟩
  · exact ⟨found, hq, rfl⟩

end Lookup

end Ledger
