import Mathlib.Order.Basic

/-! Counted units behind a condition variable that wakes one waiter at a time.

Somebody who finds no unit parks. A unit that becomes free wakes one of those who are
parked; whoever is awake takes a unit if there is one, and so may a newcomer before them.
Nobody is left parked beside a unit that nobody has been woken for (`Supplied`). -/

/-- Free units, the waiters that are parked, and those woken that have not resumed. -/
structure Turnstile where
  free : Nat
  parked : Nat
  woken : Nat

namespace Turnstile

/-- A parked waiter misses nothing: there is a woken one for each free unit. -/
def Supplied (b : Turnstile) : Prop := 0 < b.parked → b.free ≤ b.woken

/-- What can happen at a turnstile. -/
inductive Turn (b : Turnstile) : Turnstile → Prop where
  | stay : Turn b b
  /-- A unit is taken; `woken` is what becomes of the woken waiters. -/
  | take (woken : Nat) (resumed : b.woken ≤ woken + 1) (unit : 0 < b.free) : Turn b ⟨b.free - 1, b.parked, woken⟩
  /-- There is no unit: who comes, or comes back, parks or leaves. -/
  | miss (parked woken : Nat) (empty : b.free = 0) : Turn b ⟨0, parked, woken⟩
  /-- A parked waiter stops waiting by itself. -/
  | expire (parked : Nat) (fewer : parked ≤ b.parked) : Turn b ⟨b.free, parked, b.woken⟩
  /-- A unit becomes free, and nobody is parked. -/
  | release (alone : b.parked = 0) : Turn b ⟨b.free + 1, 0, b.woken⟩
  /-- A unit becomes free, and one parked waiter is woken for it. -/
  | wake (waiting : 0 < b.parked) : Turn b ⟨b.free + 1, b.parked - 1, b.woken + 1⟩
  /-- Nobody is parked any more. -/
  | clear (free woken : Nat) : Turn b ⟨free, 0, woken⟩

theorem Turn.supplied {b c : Turnstile} (h : Turn b c) (hb : b.Supplied) : c.Supplied := by
  cases h with
  | stay => exact hb
  | take woken resumed unit =>
    intro hparked
    have hb := hb hparked
    show b.free - 1 ≤ woken
    omega
  | miss parked woken empty => exact fun _ => Nat.zero_le _
  | expire parked fewer => exact fun hparked => hb (Nat.lt_of_lt_of_le hparked fewer)
  | release alone => exact fun hparked => absurd hparked (Nat.lt_irrefl 0)
  | wake waiting =>
    intro _
    exact Nat.succ_le_succ (hb waiting)
  | clear free woken => exact fun hparked => absurd hparked (Nat.lt_irrefl 0)

end Turnstile
