import Mathlib.Data.List.Basic

/-! Threads parked at a condition variable.

What a thread is stays open: `parked` says whether it waits, `wake` what a notification
makes of it. `notifyAll` wakes every parked thread and `notifyOne` one of them, whichever.
Threads of several kinds may wait at the same variable, and then a notification meant for
one kind can wake a thread of another: it reaches a kind for certain only when no other is
parked (`notifyOne_reaches`). -/

/-- A condition variable: a thread that has been woken is not parked. -/
structure Condvar (T : Type*) where
  parked : T → Bool
  wake : T → T
  awake : ∀ t, parked (wake t) = false

namespace Condvar
variable {T : Type*} (c : Condvar T)

def notifyAll (threads : List T) : List T :=
  threads.map fun t => if c.parked t then c.wake t else t

/-- `waiter` is the thread that wakes; it is `none` when nobody is parked. -/
def notifyOne (threads : List T) (waiter : Option Nat) : Option (List T) :=
  match waiter with
  | none => if threads.any c.parked then none else some threads
  | some j =>
    match threads[j]? with
    | some t => if c.parked t then some (threads.set j (c.wake t)) else none
    | none => none

theorem notifyAll_parked {threads : List T} {t : T} (h : t ∈ c.notifyAll threads) :
    c.parked t = false := by
  obtain ⟨u, -, rfl⟩ := List.mem_map.mp h
  by_cases hu : c.parked u = true
  · rw [if_pos hu]
    exact c.awake u
  · rw [if_neg hu]
    simpa using hu

section notifyOne
variable {c} {threads after : List T} {waiter : Option Nat}

/-- Either nobody is parked and nothing changes, or one parked thread is woken. -/
theorem notifyOne_cases (h : c.notifyOne threads waiter = some after) :
    (after = threads ∧ ∀ t ∈ threads, c.parked t = false) ∨
      ∃ j t, threads[j]? = some t ∧ c.parked t = true ∧ after = threads.set j (c.wake t) := by
  unfold notifyOne at h
  cases waiter with
  | none =>
    simp only [Option.ite_none_left_eq_some, Option.some.injEq] at h
    obtain ⟨hnobody, rfl⟩ := h
    refine .inl ⟨rfl, fun t ht => ?_⟩
    have := fun hparked => hnobody (List.any_eq_true.mpr ⟨t, ht, hparked⟩)
    simpa using this
  | some j =>
    cases ht : threads[j]? with
    | none => simp [ht] at h
    | some t =>
      simp only [ht, Option.ite_none_right_eq_some, Option.some.injEq] at h
      exact .inr ⟨j, t, ht, h.1, h.2.symm⟩

/-- Who is parked afterwards was parked before. -/
theorem notifyOne_parked (h : c.notifyOne threads waiter = some after) {t : T} (ht : t ∈ after)
    (hparked : c.parked t = true) : t ∈ threads := by
  obtain ⟨rfl, -⟩ | ⟨j, u, -, -, rfl⟩ := notifyOne_cases h
  · exact ht
  · rcases List.mem_or_eq_of_mem_set ht with ht | rfl
    · exact ht
    · rw [c.awake] at hparked
      cases hparked

/-- Who is not parked is left alone. -/
theorem notifyOne_awake (h : c.notifyOne threads waiter = some after) {t : T} (ht : t ∈ threads)
    (hawake : c.parked t = false) : t ∈ after := by
  obtain ⟨rfl, -⟩ | ⟨j, u, hu, hparked, rfl⟩ := notifyOne_cases h
  · exact ht
  · obtain ⟨k, hk⟩ := List.mem_iff_getElem?.mp ht
    have hne : j ≠ k := by
      intro heq
      obtain rfl := heq
      rw [hk, Option.some.injEq] at hu
      rw [← hu, hawake] at hparked
      cases hparked
    exact List.mem_iff_getElem?.mpr ⟨k, by rw [List.getElem?_set_ne hne, hk]⟩

/-- When only threads of one kind are parked, one of that kind is woken, unless nobody is. -/
theorem notifyOne_reaches {Kind : T → Prop} (h : c.notifyOne threads waiter = some after)
    (only : ∀ t ∈ threads, c.parked t = true → Kind t) :
    (∀ t ∈ after, c.parked t = false) ∨ ∃ t, Kind t ∧ c.parked t = true ∧ c.wake t ∈ after := by
  obtain ⟨rfl, hnobody⟩ | ⟨j, t, ht, hparked, rfl⟩ := notifyOne_cases h
  · exact .inl hnobody
  · have hj : j < threads.length := (List.getElem?_eq_some_iff.mp ht).1
    exact .inr ⟨t, only t (List.mem_of_getElem? ht) hparked, hparked, List.mem_set hj (c.wake t)⟩

end notifyOne

end Condvar
