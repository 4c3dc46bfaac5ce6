import PostgresTestHarness.AdminPool.System
import PostgresTestHarness.Library.Ledger
import PostgresTestHarness.Library.Turnstile

/-! Slots and wakeups of `AdminSessionPool`.

`total` counts the idle sessions and the calls that hold a slot (`Slotted`), so a
`checked_sub` cannot fail and a call that ends with an error holds none. To its waiters the
pool is a turnstile whose units are the idle sessions and the slots that are left. -/
namespace PostgresTestHarness.AdminPool

namespace Stage

/-- The call has a session that was in the pool, or that is up. -/
def checkedOut : Stage → Nat
  | .resetting _ | .resetFailed | .operating _ | .returning _ _ => 1
  | _ => 0

/-- The call has a slot for the session it connects. -/
def reserved : Stage → Nat
  | .connecting | .connectFailed _ => 1
  | _ => 0

def slots (x : Stage) : Nat := x.checkedOut + x.reserved

def parks : Stage → Nat
  | .parked => 1
  | _ => 0

def wakes : Stage → Nat
  | .woken => 1
  | _ => 0

/-- About to lock the state and look. -/
def looks (x : Stage) : Prop := x = .locking ∨ x = .woken ∨ x = .expired

end Stage

namespace State

/-- A sum over the calls. -/
def count (s : State) (f : Stage → Nat) : Nat := (s.checkouts.map fun c => f c.stage).sum

def turnstile (cfg : Config) (s : State) : Turnstile where
  free := s.idle.length + (cfg.size - s.total)
  parked := s.count Stage.parks
  woken := s.count Stage.wakes

end State

/-- A call's own steps, none of which looks at the state. -/
inductive Quiet : Stage → Stage → Prop where
  | same (x : Stage) : Quiet x x
  | endWait : Quiet .parked .expired
  | reset (client : Nat) : Quiet (.resetting client) (.operating client)
  | resetFailed (client : Nat) : Quiet (.resetting client) .resetFailed
  | late (error : Error) : Quiet .released (.failed error)
  | again : Quiet .released .locking
  | connected (client : Nat) : Quiet .connecting (.operating client)
  | connectFailed (error : Error) : Quiet .connecting (.connectFailed error)
  | operation (client : Nat) (disposition : Disposition) : Quiet (.operating client) (.returning client disposition)

/-- What `notify_one` does. -/
inductive Notified (s : State) : State → Prop where
  | nobody (alone : s.count Stage.parks = 0) : Notified s s
  | one (j : Nat) (elapsed : Bool) (waiter : s.checkouts[j]? = some ⟨.parked, elapsed⟩) :
      Notified s (s.move j ⟨.woken, elapsed⟩)

/-- Every step of a pool whose books are right, with its guard and its result. -/
inductive Transition (cfg : Config) (s : State) : State → Prop where
  | execute : Transition cfg s { s with checkouts := s.checkouts ++ [⟨.locking, false⟩] }
  | quiet (i : Nat) (c c' : Checkout) (nextClient : Nat) (call : s.checkouts[i]? = some c)
      (rule : Quiet c.stage c'.stage) : Transition cfg s { s.move i c' with nextClient }
  | shut (i : Nat) (c : Checkout) (error : Error) (call : s.checkouts[i]? = some c) (looks : c.stage.looks)
      (closed : s.closed = true) : Transition cfg s (s.move i ⟨.failed error, c.elapsed⟩)
  | reuse (i : Nat) (c : Checkout) (client : Nat) (rest : List Nat) (call : s.checkouts[i]? = some c)
      (looks : c.stage.looks) (opened : s.closed = false) (idle : s.idle = client :: rest) :
      Transition cfg s { s.move i ⟨.resetting client, c.elapsed⟩ with idle := rest }
  | reserve (i : Nat) (c : Checkout) (call : s.checkouts[i]? = some c) (looks : c.stage.looks)
      (opened : s.closed = false) (idle : s.idle = []) (room : s.total < cfg.size) :
      Transition cfg s { s.move i ⟨.connecting, c.elapsed⟩ with total := s.total + 1 }
  | miss (i : Nat) (c c' : Checkout) (call : s.checkouts[i]? = some c) (looks : c.stage.looks)
      (opened : s.closed = false) (idle : s.idle = []) (full : cfg.size ≤ s.total) (slotless : c'.stage.slots = 0) :
      Transition cfg s (s.move i c')
  | release (i : Nat) (c c' : Checkout) (t : State) (call : s.checkouts[i]? = some c) (holds : c.stage.slots = 1)
      (slotless : c'.stage.slots = 0) (gone : c'.stage.parks = 0 ∧ c'.stage.wakes = 0)
      (notified : Notified { s.move i c' with total := s.total - 1 } t) : Transition cfg s t
  | keep (i client : Nat) (elapsed : Bool) (t : State) (call : s.checkouts[i]? = some ⟨.returning client .reuse, elapsed⟩)
      (opened : s.closed = false) (notified : Notified { s.move i ⟨.finished, elapsed⟩ with idle := client :: s.idle } t) :
      Transition cfg s t
  | close : Transition cfg s { s with
      closed := true
      total := s.total - s.idle.length
      idle := []
      checkouts := s.checkouts.map Checkout.notified }

/-- The books: `total` is what is idle and what calls hold. -/
structure Slotted (cfg : Config) (s : State) : Prop where
  total : s.total = s.idle.length + s.count Stage.checkedOut + s.count Stage.reserved
  bounded : s.total ≤ cfg.size
  closed : s.closed = true → s.idle = [] ∧ s.count Stage.parks = 0
  sound : s.poisoned = false

section Counts
variable {s t : State} {i : Nat} {c : Checkout}

theorem count_move (f : Stage → Nat) (call : s.checkouts[i]? = some c) (c' : Checkout) :
    (s.move i c').count f + f c.stage = s.count f + f c'.stage :=
  Ledger.sum_map_set (fun c : Checkout => f c.stage) c' call

theorem le_count (f : Stage → Nat) (call : s.checkouts[i]? = some c) : f c.stage ≤ s.count f := by
  have := Ledger.sum_map_eraseIdx (fun c : Checkout => f c.stage) call
  rw [State.count]
  omega

theorem count_execute (f : Stage → Nat) :
    ({ s with checkouts := s.checkouts ++ [⟨.locking, false⟩] } : State).count f = s.count f + f .locking := by
  rw [State.count, List.map_append, List.sum_append]
  rfl

theorem notified_slots (c : Checkout) : c.notified.stage.checkedOut = c.stage.checkedOut ∧
    c.notified.stage.reserved = c.stage.reserved ∧ c.notified.stage.parks = 0 := by
  obtain ⟨stage, elapsed⟩ := c
  cases stage <;> exact ⟨rfl, rfl, rfl⟩

theorem count_notified (f : Stage → Nat) (h : ∀ c : Checkout, f c.notified.stage = f c.stage) :
    ({ s with checkouts := s.checkouts.map Checkout.notified } : State).count f = s.count f := by
  rw [State.count, List.map_map]
  exact congrArg List.sum (List.map_congr_left fun c _ => h c)

theorem count_none_parked : ({ s with checkouts := s.checkouts.map Checkout.notified } : State).count Stage.parks = 0 := by
  rw [State.count, List.map_map]
  refine List.sum_eq_zero fun n hn => ?_
  obtain ⟨c, _, rfl⟩ := List.mem_map.mp hn
  exact (notified_slots c).2.2

/-- `notify_one` moves one waiter, and nothing else. -/
theorem Notified.frame (h : Notified s t) : t.idle = s.idle ∧ t.total = s.total ∧ t.closed = s.closed ∧
    t.poisoned = s.poisoned ∧ t.count Stage.checkedOut = s.count Stage.checkedOut ∧
    t.count Stage.reserved = s.count Stage.reserved ∧ t.count Stage.parks ≤ s.count Stage.parks := by
  cases h with
  | nobody alone => exact ⟨rfl, rfl, rfl, rfl, rfl, rfl, Nat.le_refl _⟩
  | one j elapsed waiter =>
    have hout := count_move Stage.checkedOut waiter ⟨.woken, elapsed⟩
    have hreserved := count_move Stage.reserved waiter ⟨.woken, elapsed⟩
    have hparks := count_move Stage.parks waiter ⟨.woken, elapsed⟩
    simp only [Stage.checkedOut, Stage.reserved, Stage.parks, Nat.add_zero] at hout hreserved hparks
    exact ⟨rfl, rfl, rfl, rfl, hout, hreserved, by omega⟩

theorem notifyOne_notified {waiter : Option Nat} (h : s.notifyOne waiter = some t) : Notified s t := by
  unfold State.notifyOne at h
  split at h
  · split at h
    · cases h
    · rename_i hnone
      cases h
      refine .nobody (List.sum_eq_zero fun n hn => ?_)
      obtain ⟨c, hc, rfl⟩ := List.mem_map.mp hn
      have hstage : c.stage ≠ .parked := fun heq => hnone (List.any_eq_true.mpr ⟨c, hc, beq_iff_eq.mpr heq⟩)
      cases hcase : c.stage <;> first | rfl | exact absurd hcase hstage
  · split at h
    · rename_i j elapsed waiter
      cases h
      exact .one _ elapsed waiter
    · cases h

theorem Quiet.slots {x y : Stage} (h : Quiet x y) : y.slots = x.slots ∧ y.parks ≤ x.parks := by
  cases h <;> exact ⟨rfl, by simp [Stage.parks]⟩

/-- A call that looks held nothing before, and was not parked. -/
theorem looks_move (call : s.checkouts[i]? = some c) (h : c.stage.looks) (c' : Checkout) :
    (s.move i c').count Stage.checkedOut = s.count Stage.checkedOut + c'.stage.checkedOut ∧
    (s.move i c').count Stage.reserved = s.count Stage.reserved + c'.stage.reserved ∧
    (s.move i c').count Stage.parks = s.count Stage.parks + c'.stage.parks ∧
    s.count Stage.wakes ≤ (s.move i c').count Stage.wakes + 1 := by
  have hstage : c.stage.checkedOut = 0 ∧ c.stage.reserved = 0 ∧ c.stage.parks = 0 ∧ c.stage.wakes ≤ 1 := by
    rcases h with heq | heq | heq <;> rw [heq] <;> decide
  have hout := count_move Stage.checkedOut call c'
  have hreserved := count_move Stage.reserved call c'
  have hparks := count_move Stage.parks call c'
  have hwakes := count_move Stage.wakes call c'
  omega

end Counts

section Steps
variable {cfg : Config} {s t : State} {a : Action}

theorem Slotted.sub_idle (hs : Slotted cfg s) : checkedSub s.total s.idle.length = some (s.total - s.idle.length) := by
  have htotal := hs.total
  exact if_pos (by omega)

/-- A call that holds a slot is in the total. -/
theorem Slotted.sub_one (hs : Slotted cfg s) {i : Nat} {c : Checkout} (call : s.checkouts[i]? = some c)
    (holds : c.stage.slots = 1) : checkedSub s.total 1 = some (s.total - 1) := by
  have htotal := hs.total
  have hout := le_count Stage.checkedOut call
  have hreserved := le_count Stage.reserved call
  rw [Stage.slots] at holds
  exact if_pos (by omega)

theorem release_transition (hs : Slotted cfg s) {i : Nat} {c c' : Checkout} {waiter : Option Nat}
    (call : s.checkouts[i]? = some c) (holds : c.stage.slots = 1) (slotless : c'.stage.slots = 0)
    (gone : c'.stage.parks = 0 ∧ c'.stage.wakes = 0) (h : s.releaseSlot i c' waiter = some t) :
    Transition cfg s t := by
  rw [State.releaseSlot, hs.sub_one call holds] at h
  exact .release i c c' t call holds slotless gone (notifyOne_notified h)

/-- A step is one of the transitions. -/
theorem step_transition (hs : Slotted cfg s) (h : s.step cfg a = some t) : Transition cfg s t := by
  cases a with
  | execute =>
    cases h
    exact .execute
  | elapse i =>
    simp only [State.step] at h
    split at h
    · rename_i c call
      cases h
      exact .quiet i c { c with elapsed := true } s.nextClient call (.same _)
    · cases h
  | acquire i =>
    simp only [State.step, State.acquire, hs.sound] at h
    split at h
    · rename_i stage elapsed call
      split at h
      · rename_i looks
        cases h
        cases hclosed : s.closed with
        | true => exact .shut i ⟨stage, elapsed⟩ _ call looks hclosed
        | false =>
          cases hidle : s.idle with
          | cons client rest => exact .reuse i ⟨stage, elapsed⟩ client rest call looks hclosed hidle
          | nil =>
            simp only [Bool.false_eq_true, if_false]
            split
            · rename_i room
              exact .reserve i ⟨stage, elapsed⟩ call looks hclosed hidle room
            · rename_i full
              split
              · exact .miss i ⟨stage, elapsed⟩ _ call looks hclosed hidle (Nat.le_of_not_lt full) rfl
              · exact .miss i ⟨stage, elapsed⟩ _ call looks hclosed hidle (Nat.le_of_not_lt full) rfl
      · cases h
    · cases h
  | endWait i =>
    simp only [State.step] at h
    split at h
    · rename_i elapsed call
      cases h
      exact .quiet i _ ⟨.expired, elapsed⟩ s.nextClient call .endWait
    · cases h
  | reset i succeeds =>
    simp only [State.step] at h
    split at h
    · rename_i client elapsed call
      cases h
      cases succeeds with
      | true => exact .quiet i _ ⟨.operating client, elapsed⟩ s.nextClient call (.reset client)
      | false => exact .quiet i _ ⟨.resetFailed, elapsed⟩ s.nextClient call (.resetFailed client)
    · cases h
  | release i waiter =>
    simp only [State.step] at h
    split at h
    · rename_i elapsed call
      exact release_transition hs call rfl rfl ⟨rfl, rfl⟩ h
    · rename_i error elapsed call
      exact release_transition hs call rfl rfl ⟨rfl, rfl⟩ h
    · cases h
  | checkDeadline i =>
    simp only [State.step] at h
    split at h
    · rename_i elapsed call
      cases h
      cases elapsed with
      | true => exact .quiet i _ ⟨.failed _, true⟩ s.nextClient call (.late _)
      | false => exact .quiet i _ ⟨.locking, false⟩ s.nextClient call .again
    · cases h
  | connect i result =>
    simp only [State.step] at h
    split at h
    · rename_i elapsed call
      cases h
      exact .quiet i _ ⟨.operating s.nextClient, elapsed⟩ _ call (.connected _)
    · rename_i elapsed error call
      cases h
      exact .quiet i _ ⟨.connectFailed error, elapsed⟩ s.nextClient call (.connectFailed error)
    · cases h
  | operation i disposition =>
    simp only [State.step] at h
    split at h
    · rename_i client elapsed call
      cases h
      exact .quiet i _ ⟨.returning client disposition, elapsed⟩ s.nextClient call (.operation client disposition)
    · cases h
  | giveBack i waiter =>
    simp only [State.step, State.giveBack] at h
    split at h
    · rename_i client disposition elapsed call
      split at h
      · rename_i hkept
        obtain ⟨rfl, opened⟩ := hkept
        exact .keep i client elapsed t call opened (notifyOne_notified h)
      · exact release_transition hs call rfl rfl ⟨rfl, rfl⟩ h
    · cases h
  | close =>
    simp only [State.step, State.close, hs.sub_idle, Option.some.injEq] at h
    subst h
    exact .close

theorem slotted_step (h : Transition cfg s t) (hs : Slotted cfg s) : Slotted cfg t := by
  have htotal := hs.total
  have hbounded := hs.bounded
  cases h with
  | execute =>
    have hout := count_execute (s := s) Stage.checkedOut
    have hreserved := count_execute (s := s) Stage.reserved
    refine ⟨?_, hbounded, fun hclosed => ⟨(hs.closed hclosed).1, ?_⟩, hs.sound⟩
    · rw [hout, hreserved]
      exact htotal
    · exact (count_execute Stage.parks).trans (hs.closed hclosed).2
  | quiet i c c' nextClient call rule =>
    obtain ⟨hslots, hparks⟩ := rule.slots
    have hout := count_move Stage.checkedOut call c'
    have hreserved := count_move Stage.reserved call c'
    have hparked := count_move Stage.parks call c'
    rw [Stage.slots, Stage.slots] at hslots
    refine ⟨?_, hbounded, fun hclosed => ⟨(hs.closed hclosed).1, ?_⟩, hs.sound⟩
    · show s.total = s.idle.length + (s.move i c').count Stage.checkedOut + (s.move i c').count Stage.reserved
      omega
    · have hnone := (hs.closed hclosed).2
      show (s.move i c').count Stage.parks = 0
      omega
  | shut i c error call looks closed =>
    obtain ⟨hout, hreserved, hparked, _⟩ := looks_move call looks ⟨.failed error, c.elapsed⟩
    refine ⟨?_, hbounded, fun hclosed => ⟨(hs.closed hclosed).1, hparked.trans (hs.closed hclosed).2⟩, hs.sound⟩
    rw [hout, hreserved]
    exact htotal
  | reuse i c client rest call looks opened idle =>
    obtain ⟨hout, hreserved, _⟩ := looks_move call looks ⟨.resetting client, c.elapsed⟩
    rw [idle, List.length_cons] at htotal
    refine ⟨?_, hbounded, fun hclosed => (nomatch opened.symm.trans hclosed), hs.sound⟩
    show s.total = rest.length + (s.move i ⟨.resetting client, c.elapsed⟩).count Stage.checkedOut +
      (s.move i ⟨.resetting client, c.elapsed⟩).count Stage.reserved
    rw [hout, hreserved, htotal]
    simp only [Stage.checkedOut, Stage.reserved]
    omega
  | reserve i c call looks opened idle room =>
    obtain ⟨hout, hreserved, _⟩ := looks_move call looks ⟨.connecting, c.elapsed⟩
    refine ⟨?_, room, fun hclosed => (nomatch opened.symm.trans hclosed), hs.sound⟩
    show s.total + 1 = s.idle.length + (s.move i ⟨.connecting, c.elapsed⟩).count Stage.checkedOut +
      (s.move i ⟨.connecting, c.elapsed⟩).count Stage.reserved
    rw [hout, hreserved, htotal]
    rfl
  | miss i c c' call looks opened idle full slotless =>
    obtain ⟨hout, hreserved, _⟩ := looks_move call looks c'
    rw [Stage.slots] at slotless
    refine ⟨?_, hbounded, fun hclosed => (nomatch opened.symm.trans hclosed), hs.sound⟩
    show s.total = s.idle.length + (s.move i c').count Stage.checkedOut + (s.move i c').count Stage.reserved
    omega
  | release i c c' _ call holds slotless gone notified =>
    obtain ⟨hidle, htotals, hclosed, hpoisoned, houts, hreserveds, hparks⟩ := notified.frame
    have hout := count_move Stage.checkedOut call c'
    have hreserved := count_move Stage.reserved call c'
    have hparked := count_move Stage.parks call c'
    have hle := le_count Stage.parks call
    rw [Stage.slots] at holds slotless
    change _ = (s.move i c').count _ at houts hreserveds
    change _ ≤ (s.move i c').count _ at hparks
    change _ = s.total - 1 at htotals
    change _ = s.idle at hidle
    refine ⟨?_, ?_, fun hshut => ?_, hpoisoned.trans hs.sound⟩
    · rw [hidle, htotals]
      omega
    · rw [htotals]
      omega
    · obtain ⟨hempty, hnone⟩ := hs.closed (hclosed.symm.trans hshut)
      refine ⟨hidle.trans hempty, ?_⟩
      omega
  | keep i client elapsed _ call opened notified =>
    obtain ⟨hidle, htotals, hclosed, hpoisoned, houts, hreserveds, hparks⟩ := notified.frame
    have hout := count_move Stage.checkedOut call ⟨.finished, elapsed⟩
    have hreserved := count_move Stage.reserved call ⟨.finished, elapsed⟩
    simp only [Stage.checkedOut, Stage.reserved, Nat.add_zero] at hout hreserved
    change _ = (s.move i ⟨.finished, elapsed⟩).count _ at houts hreserveds
    change _ = s.total at htotals
    change _ = client :: s.idle at hidle
    change _ = s.closed at hclosed
    refine ⟨?_, ?_, fun hshut => ?_, hpoisoned.trans hs.sound⟩
    · rw [hidle, htotals, List.length_cons]
      omega
    · rw [htotals]
      exact hbounded
    · rw [hclosed, opened] at hshut
      cases hshut
  | close =>
    have hout := count_notified (s := s) Stage.checkedOut fun c => (notified_slots c).1
    have hreserved := count_notified (s := s) Stage.reserved fun c => (notified_slots c).2.1
    refine ⟨?_, (Nat.sub_le _ _).trans hbounded, fun _ => ⟨rfl, count_none_parked⟩, hs.sound⟩
    show s.total - s.idle.length =
      0 + ({ s with checkouts := s.checkouts.map Checkout.notified } : State).count Stage.checkedOut +
        ({ s with checkouts := s.checkouts.map Checkout.notified } : State).count Stage.reserved
    omega

theorem slotted {cfg : Config} (h : (machine cfg).Reachable s) : Slotted cfg s := by
  have hinv : (machine cfg).Invariant (Slotted cfg) := by
    refine ⟨?_, fun s a t _ hs hstep => slotted_step (step_transition hs hstep) hs⟩
    intro _ heq
    obtain rfl := heq
    exact ⟨rfl, Nat.zero_le _, nofun, rfl⟩
  exact hinv.holds h

/-! ### Wakeups -/

theorem Quiet.wakes {x y : Stage} (h : Quiet x y) : y.wakes = x.wakes := by
  cases h <;> rfl

/-- A call with a slot is neither parked nor woken. -/
theorem awake_of_slots {x : Stage} (h : x.slots = 1) : x.parks = 0 ∧ x.wakes = 0 := by
  cases x <;> first | exact ⟨rfl, rfl⟩ | cases h

/-- A unit that becomes free wakes one of those who are parked. -/
theorem Notified.turn {u : State} (h : Notified u t)
    (hfree : u.idle.length + (cfg.size - u.total) = s.idle.length + (cfg.size - s.total) + 1)
    (hparks : u.count Stage.parks = s.count Stage.parks) (hwakes : u.count Stage.wakes = s.count Stage.wakes) :
    Turnstile.Turn (s.turnstile cfg) (t.turnstile cfg) := by
  cases h with
  | nobody alone =>
    show Turnstile.Turn _ ⟨t.idle.length + (cfg.size - t.total), t.count Stage.parks, t.count Stage.wakes⟩
    rw [hfree, alone, hwakes]
    exact .release (hparks.symm.trans alone)
  | one j elapsed waiter =>
    have hparked := count_move Stage.parks waiter ⟨.woken, elapsed⟩
    have hwoken := count_move Stage.wakes waiter ⟨.woken, elapsed⟩
    have hparked : (u.move j ⟨.woken, elapsed⟩).count Stage.parks + 1 = u.count Stage.parks := hparked
    have hwoken : (u.move j ⟨.woken, elapsed⟩).count Stage.wakes = u.count Stage.wakes + 1 := hwoken
    have hleft : (u.move j ⟨.woken, elapsed⟩).count Stage.parks = s.count Stage.parks - 1 := by omega
    have hwaiting : 0 < s.count Stage.parks := by omega
    show Turnstile.Turn _ ⟨u.idle.length + (cfg.size - u.total), _, _⟩
    rw [hfree, hleft, hwoken, hwakes]
    exact .wake hwaiting

/-- Every step is a turn at the turnstile. -/
theorem turn_step (h : Transition cfg s t) (hs : Slotted cfg s) :
    Turnstile.Turn (s.turnstile cfg) (t.turnstile cfg) := by
  have htotal := hs.total
  have hbounded := hs.bounded
  cases h with
  | execute =>
    show Turnstile.Turn _ ⟨s.idle.length + (cfg.size - s.total),
      ({ s with checkouts := s.checkouts ++ [⟨.locking, false⟩] } : State).count Stage.parks,
      ({ s with checkouts := s.checkouts ++ [⟨.locking, false⟩] } : State).count Stage.wakes⟩
    rw [count_execute Stage.parks, count_execute Stage.wakes]
    exact .stay
  | quiet i c c' nextClient call rule =>
    have hparks := count_move Stage.parks call c'
    have hwakes := count_move Stage.wakes call c'
    have hrule := rule.slots.2
    rw [rule.wakes] at hwakes
    show Turnstile.Turn _ ⟨_, (s.move i c').count Stage.parks, (s.move i c').count Stage.wakes⟩
    rw [Nat.add_right_cancel hwakes]
    refine .expire _ ?_
    show (s.move i c').count Stage.parks ≤ s.count Stage.parks
    omega
  | shut i c error call looks closed =>
    obtain ⟨_, _, hparked, _⟩ := looks_move call looks ⟨.failed error, c.elapsed⟩
    show Turnstile.Turn _ ⟨_, (s.move i ⟨.failed error, c.elapsed⟩).count Stage.parks, _⟩
    rw [hparked, (hs.closed closed).2]
    exact .clear _ _
  | reuse i c client rest call looks opened idle =>
    obtain ⟨_, _, hparked, hwoken⟩ := looks_move call looks ⟨.resetting client, c.elapsed⟩
    have hfree : rest.length + (cfg.size - s.total) = s.idle.length + (cfg.size - s.total) - 1 := by
      rw [idle, List.length_cons]
      omega
    show Turnstile.Turn _ ⟨rest.length + (cfg.size - s.total), (s.move i _).count Stage.parks, (s.move i _).count Stage.wakes⟩
    rw [hfree, hparked]
    refine .take _ hwoken ?_
    show 0 < s.idle.length + (cfg.size - s.total)
    rw [idle, List.length_cons]
    omega
  | reserve i c call looks opened idle room =>
    obtain ⟨_, _, hparked, hwoken⟩ := looks_move call looks ⟨.connecting, c.elapsed⟩
    have hfree : s.idle.length + (cfg.size - (s.total + 1)) = s.idle.length + (cfg.size - s.total) - 1 := by omega
    show Turnstile.Turn _ ⟨s.idle.length + (cfg.size - (s.total + 1)), (s.move i _).count Stage.parks,
      (s.move i _).count Stage.wakes⟩
    rw [hfree, hparked]
    refine .take _ hwoken ?_
    show 0 < s.idle.length + (cfg.size - s.total)
    omega
  | miss i c c' call looks opened idle full slotless =>
    have hfree : s.idle.length + (cfg.size - s.total) = 0 := by
      rw [idle, List.length_nil]
      omega
    show Turnstile.Turn _ ⟨s.idle.length + (cfg.size - s.total), _, _⟩
    rw [hfree]
    exact .miss _ _ hfree
  | release i c c' _ call holds slotless gone notified =>
    have hparks := count_move Stage.parks call c'
    have hwakes := count_move Stage.wakes call c'
    obtain ⟨hnoPark, hnoWake⟩ := awake_of_slots holds
    have hout := le_count Stage.checkedOut call
    have hreserved := le_count Stage.reserved call
    rw [Stage.slots] at holds
    refine notified.turn ?_ ?_ ?_
    · show s.idle.length + (cfg.size - (s.total - 1)) = _
      omega
    · show (s.move i c').count Stage.parks = _
      omega
    · show (s.move i c').count Stage.wakes = _
      omega
  | keep i client elapsed _ call opened notified =>
    have hparks := count_move Stage.parks call ⟨.finished, elapsed⟩
    have hwakes := count_move Stage.wakes call ⟨.finished, elapsed⟩
    refine notified.turn ?_ hparks hwakes
    show (client :: s.idle).length + (cfg.size - s.total) = _
    rw [List.length_cons]
    omega
  | close =>
    show Turnstile.Turn _ ⟨_, ({ s with checkouts := s.checkouts.map Checkout.notified } : State).count Stage.parks, _⟩
    rw [count_none_parked]
    exact .clear _ _

theorem supplied (h : (machine cfg).Reachable s) : (s.turnstile cfg).Supplied := by
  have hinv : (machine cfg).Invariant fun s => (s.turnstile cfg).Supplied := by
    refine ⟨?_, fun s a t hreach hs hstep => ?_⟩
    · intro _ heq
      obtain rfl := heq
      exact fun hparked => absurd hparked (Nat.lt_irrefl 0)
    · have hslotted := slotted hreach
      exact (turn_step (step_transition hslotted hstep) hslotted).supplied hs
  exact hinv.holds h

/-! ### What becomes of a slot -/

/-- A call between two states: it keeps what it held, or held nothing, or gives its slot
back, with its session or without. -/
inductive Passed (s t : State) (c c' : Checkout) : Prop where
  | same (slots : c'.stage.slots = c.stage.slots)
  | free (slots : c.stage.slots = 0)
  | released (total : t.total + 1 = s.total) (idle : t.idle = s.idle)
  | kept (client : Nat) (opened : s.closed = false) (before : c.stage = .returning client .reuse)
      (after : c'.stage = .finished) (total : t.total = s.total) (idle : t.idle = client :: s.idle)

theorem Notified.place (h : Notified s t) {k : Nat} {c : Checkout} (hk : t.checkouts[k]? = some c) :
    s.checkouts[k]? = some c ∨ ∃ elapsed, s.checkouts[k]? = some ⟨.parked, elapsed⟩ ∧ c.stage = .woken := by
  cases h with
  | nobody alone => exact Or.inl hk
  | one j elapsed waiter =>
    rcases Ledger.getElem?_set_cases hk with ⟨rfl, rfl⟩ | ⟨_, hk⟩
    · exact Or.inr ⟨elapsed, waiter, rfl⟩
    · exact Or.inl hk

/-- What a call moves to when the state it left has lost a waiter. -/
theorem passed_of_notified {i k : Nat} {c c' d d' : Checkout} {u : State}
    (hcheckouts : u.checkouts = s.checkouts.set i c') (notified : Notified u t) (call : s.checkouts[i]? = some c)
    (gone : c'.stage.parks = 0) (hi : Passed s t c c') (hk : s.checkouts[k]? = some d)
    (hk' : t.checkouts[k]? = some d') : Passed s t d d' := by
  rcases notified.place hk' with hplace | ⟨elapsed, hplace, _⟩
  · rw [hcheckouts] at hplace
    rcases Ledger.getElem?_set_cases hplace with ⟨rfl, rfl⟩ | ⟨_, hplace⟩
    · cases call.symm.trans hk
      exact hi
    · cases hplace.symm.trans hk
      exact .same rfl
  · rw [hcheckouts] at hplace
    rcases Ledger.getElem?_set_cases hplace with ⟨rfl, rfl⟩ | ⟨_, hplace⟩
    · cases gone
    · cases hplace.symm.trans hk
      exact .free rfl

theorem passed_step (h : Transition cfg s t) (hs : Slotted cfg s) {k : Nat} {d d' : Checkout}
    (hk : s.checkouts[k]? = some d) (hk' : t.checkouts[k]? = some d') : Passed s t d d' := by
  have hmove : ∀ {i : Nat} {c c' : Checkout}, s.checkouts[i]? = some c → (s.checkouts.set i c')[k]? = some d' →
      Passed s t c c' → Passed s t d d' := by
    intro i c c' call hset hpassed
    rcases Ledger.getElem?_set_cases hset with ⟨rfl, rfl⟩ | ⟨_, hset⟩
    · cases call.symm.trans hk
      exact hpassed
    · cases hset.symm.trans hk
      exact .same rfl
  have hlooks : ∀ {c : Checkout}, c.stage.looks → c.stage.slots = 0 := by
    intro c looks
    rcases looks with heq | heq | heq <;> rw [heq] <;> rfl
  cases h with
  | execute =>
    cases (Ledger.getElem?_concat_of_some hk).symm.trans hk'
    exact .same rfl
  | quiet i c c' nextClient call rule => exact hmove call hk' (.same rule.slots.1)
  | shut i c error call looks | reuse i c client rest call looks | reserve i c call looks | miss i c c' call looks =>
    exact hmove call hk' (.free (hlooks looks))
  | release i c c' _ call holds slotless gone notified =>
    obtain ⟨hidle, htotal, _⟩ := notified.frame
    have htotal : t.total = s.total - 1 := htotal
    have hpositive := hs.sub_one call holds
    refine passed_of_notified rfl notified call gone.1 (.released ?_ hidle) hk hk'
    rw [checkedSub] at hpositive
    split at hpositive
    · omega
    · cases hpositive
  | keep i client elapsed _ call opened notified =>
    obtain ⟨hidle, htotal, _⟩ := notified.frame
    exact passed_of_notified rfl notified call rfl (.kept client opened rfl rfl htotal hidle) hk hk'
  | close =>
    rw [List.getElem?_map, hk, Option.map_some, Option.some.injEq] at hk'
    subst hk'
    refine .same ?_
    rw [Stage.slots, Stage.slots, (notified_slots d).1, (notified_slots d).2.1]

/-- Only a call whose operation said so leaves its session with an open pool. -/
theorem entered_step (h : Transition cfg s t) {client : Nat} (hclient : client ∈ t.idle) : client ∈ s.idle ∨
    s.closed = false ∧ ∃ (i : Nat) (elapsed : Bool), s.checkouts[i]? = some ⟨.returning client .reuse, elapsed⟩ := by
  cases h with
  | reuse i c other rest call looks opened idle =>
    rw [idle]
    exact Or.inl (List.mem_cons_of_mem _ hclient)
  | release i c c' _ call holds slotless gone notified =>
    rw [notified.frame.1] at hclient
    exact Or.inl hclient
  | keep i other elapsed _ call opened notified =>
    rw [notified.frame.1] at hclient
    rcases List.mem_cons.mp hclient with rfl | hclient
    · exact Or.inr ⟨opened, i, elapsed, call⟩
    · exact Or.inl hclient
  | close => cases hclient
  | _ => exact Or.inl hclient

/-- What holds of a pool in every state of every run. -/
structure Sound (cfg : Config) (s : State) : Prop where
  total : s.total = s.idle.length + s.count Stage.checkedOut + s.count Stage.reserved
  bounded : s.total ≤ cfg.size
  /-- No `checked_sub` has failed, and none can. -/
  sound : s.poisoned = false
  release : ∀ (i : Nat) (c : Checkout), s.checkouts[i]? = some c → c.stage.slots = 1 →
    checkedSub s.total 1 = some (s.total - 1)
  close : checkedSub s.total s.idle.length = some (s.total - s.idle.length)
  entered : ∀ a t client, s.step cfg a = some t → client ∈ t.idle → client ∈ s.idle ∨
    s.closed = false ∧ ∃ (i : Nat) (elapsed : Bool), s.checkouts[i]? = some ⟨.returning client .reuse, elapsed⟩
  /-- What `close` does, and what stays. -/
  closes : ∀ t, s.step cfg .close = some t → t.closed = true ∧ t.idle = []
  closed : s.closed = true → s.idle = [] ∧ ∀ a t, s.step cfg a = some t → t.closed = true
  /-- A call that fails holds no slot, or gives it back. -/
  failed : ∀ a t (i : Nat) (c : Checkout) error elapsed, s.step cfg a = some t → s.checkouts[i]? = some c →
    t.checkouts[i]? = some ⟨.failed error, elapsed⟩ → c.stage.slots = 0 ∨ t.total + 1 = s.total ∧ t.idle = s.idle
  /-- No wakeup is lost. -/
  supplied : 0 < s.count Stage.parks → s.idle.length + (cfg.size - s.total) ≤ s.count Stage.wakes

theorem closed_step (h : Transition cfg s t) (hclosed : s.closed = true) : t.closed = true := by
  cases h with
  | release i c c' _ call holds slotless gone notified => exact notified.frame.2.2.1.trans hclosed
  | keep i client elapsed _ call opened notified => exact notified.frame.2.2.1.trans hclosed
  | close => rfl
  | _ => exact hclosed

theorem Slotted.closes (hs : Slotted cfg s) (h : s.step cfg .close = some t) : t.closed = true ∧ t.idle = [] := by
  simp only [State.step, State.close, hs.sub_idle] at h
  cases h
  exact ⟨rfl, rfl⟩

/-- The pool's slots are accounted for and bounded in every state of every run; only a session that
may be used again enters an open pool, and a closed one has none; a call that fails holds nothing; and
no wakeup is lost. -/
theorem admin_session_pool_sound (cfg : Config) (s : State) (hs : (machine cfg).Reachable s) : Sound cfg s := by
  have hslotted := slotted hs
  refine ⟨hslotted.total, hslotted.bounded, hslotted.sound, fun i c => hslotted.sub_one, hslotted.sub_idle,
    fun a t client hstep => entered_step (step_transition hslotted hstep), fun t => hslotted.closes,
    fun hclosed => ?_, fun a t i c error elapsed hstep hc hfailed => ?_, supplied hs⟩
  · exact ⟨(hslotted.closed hclosed).1, fun a t hstep => closed_step (step_transition hslotted hstep) hclosed⟩
  · cases passed_step (step_transition hslotted hstep) hslotted hc hfailed with
    | same slots => exact Or.inl slots.symm
    | free slots => exact Or.inl slots
    | released total idle => exact Or.inr ⟨total, idle⟩
    | kept client opened before after => cases after

/-- A pool of one session: the second call waits, the first gives its session back and wakes
it, a third call comes before it, and its deadline passes. -/
def overtaken : List Action :=
  [.execute, .acquire 0, .connect 0 (.ok ()), .execute, .acquire 1, .operation 0 .reuse, .giveBack 0 (some 1),
    .execute, .acquire 2, .elapse 1, .acquire 1, .reset 2 false, .release 2 none, .checkDeadline 2, .close]

theorem admin_session_pool_sound_overtaken : ∃ s, (machine ⟨1, 60000⟩).run .initial overtaken = some s ∧
    s.checkouts = [⟨.finished, false⟩, ⟨.failed (.adminSessionCheckoutTimeout 60000), true⟩, ⟨.locking, false⟩] ∧
    s.total = 0 ∧ Sound ⟨1, 60000⟩ s := by
  refine ⟨_, rfl, rfl, rfl, ?_⟩
  exact admin_session_pool_sound _ _ (Machine.reachable_of_run overtaken rfl rfl)

end Steps

end PostgresTestHarness.AdminPool
