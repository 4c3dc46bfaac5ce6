import PostgresTestHarness.Container.System
import PostgresTestHarness.Library.Ledger

/-! Who has the owner of a container, and who takes its worker.

The worker's handle is in the owner's slot until one caller takes it, and that caller keeps the
mutex until it has joined the thread (`Taken`). So whoever finds the slot empty finds the thread
ended: every shutdown is a barrier, and one of them has the result. -/
namespace PostgresTestHarness.Container

variable {cfg : Config} {s t : State} {i : Nat} {c d : Caller}

/-- What the place of the start says of the owner: whether it is made, and has been dropped by the start. -/
def Starter.Stands (created sender owned : Bool) : Starter → Prop
  | .spawning | .receiving | .parsing _ => created = false ∧ sender = true
  | .joining _ => created = false ∧ sender = false
  | .registering | .waiting | .marking | .finishing => created = true ∧ owned = true
  | .serving => created = true
  | .dropping _ => created = true ∧ owned = false
  | .failed _ => owned = false ∧ (created = false → sender = false)

structure Staged (s : State) : Prop where
  stands : s.starter.Stands s.created s.sender s.owned
  uncreated : s.created = false →
    s.slot = false ∧ s.owned = false ∧ s.callers = [] ∧ s.registered = false ∧ s.lock = none
  sender : s.created = true → s.sender = s.slot

/-- The worker is in the slot, or with the one caller that has taken it, who has ended it or keeps the mutex. -/
structure Taken (s : State) : Prop where
  locked : ∀ i, s.lock = some i → ∃ c, s.callers[i]? = some c ∧ c.stage = .joining
  joining : ∀ i c, s.callers[i]? = some c → c.stage = .joining → s.lock = some i ∧ c.took = true
  took : s.callers.countP (·.took) + s.slot.toNat = s.created.toNat
  begun : ∀ c ∈ s.callers, c.took = true → c.stage = .joining ∨ ∃ r, c.stage = .returned r
  returned : ∀ c ∈ s.callers, ∀ r, c.stage = .returned r →
    s.slot = false ∧ ∃ e, s.worker = .ended e ∧ r = if c.took then e.joined else .ok ()
  settled : s.created = true → s.slot = false → s.lock = none → ∃ e, s.worker = .ended e

theorem staged_initial : Staged State.initial := ⟨⟨rfl, rfl⟩, fun _ => ⟨rfl, rfl, rfl, rfl, rfl⟩, nofun⟩

theorem taken_initial : Taken State.initial where
  locked := nofun
  joining := nofun
  took := rfl
  begun := nofun
  returned := nofun
  settled := nofun

/-! ### What the worker leaves alone -/

/-- Nothing but the worker's own. -/
structure Elsewhere (s t : State) : Prop where
  starter : t.starter = s.starter
  startedReceiver : t.startedReceiver = s.startedReceiver
  sender : t.sender = s.sender
  created : t.created = s.created
  slot : t.slot = s.slot
  lock : t.lock = s.lock
  owned : t.owned = s.owned
  registered : t.registered = s.registered
  callers : t.callers = s.callers

theorem Works.elsewhere (h : Works cfg s t) : Elsewhere s t := by
  cases h <;> exact ⟨rfl, rfl, rfl, rfl, rfl, rfl, rfl, rfl, rfl⟩

theorem Works.not_ended (h : Works cfg s t) (e : Ended) : s.worker ≠ .ended e := by
  intro ended
  cases h <;> simp_all only [reduceCtorEq, exists_false, or_self]

theorem Works.ended (h : Works cfg s t) {P : Prop} (hp : ∃ e, s.worker = .ended e) : P := by
  obtain ⟨e, he⟩ := hp
  exact absurd he (h.not_ended e)

theorem Staged.elsewhere (hs : Staged s) (h : Elsewhere s t) : Staged t := by
  constructor
  · rw [h.starter, h.created, h.sender, h.owned]
    exact hs.stands
  · rw [h.created, h.slot, h.owned, h.callers, h.registered, h.lock]
    exact hs.uncreated
  · rw [h.created, h.sender, h.slot]
    exact hs.sender

/-! ### The owner is made once -/

theorem Starter.Stands.created {created sender owned : Bool} {starter : Starter}
    (h : starter.Stands created sender owned) (place : starter.Owning) : created = true ∧ owned = true := by
  obtain rfl | rfl | rfl | rfl := place <;> exact h

theorem Staged.created_of_callers (hs : Staged s) (hc : c ∈ s.callers) : s.created = true := by
  by_contra hcreated
  rw [(hs.uncreated (Bool.eq_false_iff.mpr hcreated)).2.2.1] at hc
  cases hc

/-- A step of the start before the owner is made. -/
theorem Staged.begin (hs : Staged s) (created : s.created = false) (same : t.created = false ∧ t.slot = s.slot ∧
    t.owned = s.owned ∧ t.callers = s.callers ∧ t.registered = s.registered ∧ t.lock = s.lock)
    (stands : t.starter.Stands t.created t.sender t.owned) : Staged t := by
  obtain ⟨hcreated, hslot, howned, hcallers, hregistered, hlock⟩ := same
  refine ⟨stands, fun _ => ?_, fun h => ?_⟩
  · rw [hslot, howned, hcallers, hregistered, hlock]
    exact hs.uncreated created
  · rw [hcreated] at h
    cases h

/-- A step of anybody when the owner is there. -/
theorem Staged.go (hs : Staged s) (created : s.created = true) (same : t.created = true)
    (sender : t.sender = s.sender ∧ t.slot = s.slot ∨ t.sender = false ∧ t.slot = false)
    (stands : t.starter.Stands t.created t.sender t.owned) : Staged t := by
  refine ⟨stands, fun h => ?_, fun _ => ?_⟩
  · rw [same] at h
    cases h
  · obtain ⟨hsender, hslot⟩ | ⟨hsender, hslot⟩ := sender
    · rw [hsender, hslot]
      exact hs.sender created
    · rw [hsender, hslot]

theorem staged_begins (hs : Staged s) (h : Begins cfg s t) : Staged t := by
  have hstands := hs.stands
  cases h with
  | spawned starter =>
    rw [starter] at hstands
    exact hs.begin hstands.1 ⟨hstands.1, rfl, rfl, rfl, rfl, rfl⟩ hstands
  | unspawned starter =>
    rw [starter] at hstands
    exact hs.begin hstands.1 ⟨hstands.1, rfl, rfl, rfl, rfl, rfl⟩ ⟨(hs.uncreated hstands.1).2.1, fun _ => rfl⟩
  | received started starter message =>
    rw [starter] at hstands
    exact hs.begin hstands.1 ⟨hstands.1, rfl, rfl, rfl, rfl, rfl⟩ hstands
  | gaveUp startup starter reason =>
    rw [starter] at hstands
    exact hs.begin hstands.1 ⟨hstands.1, rfl, rfl, rfl, rfl, rfl⟩ ⟨hstands.1, rfl⟩
  | joined startup result starter worker =>
    rw [starter] at hstands
    exact hs.begin hstands.1 ⟨hstands.1, rfl, rfl, rfl, rfl, rfl⟩
      ⟨(hs.uncreated hstands.1).2.1, fun _ => hstands.2⟩
  | parsed started starter =>
    rw [starter] at hstands
    exact ⟨⟨rfl, rfl⟩, nofun, fun _ => hstands.2⟩
  | unparsed started reason starter =>
    rw [starter] at hstands
    exact hs.begin hstands.1 ⟨hstands.1, rfl, rfl, rfl, rfl, rfl⟩ ⟨(hs.uncreated hstands.1).2.1, fun _ => rfl⟩
  | registered starter =>
    have hboth := hstands.created (Or.inl starter)
    exact hs.go hboth.1 hboth.1 (Or.inl ⟨rfl, rfl⟩) hboth
  | ready starter =>
    have hboth := hstands.created (Or.inr (Or.inl starter))
    exact hs.go hboth.1 hboth.1 (Or.inl ⟨rfl, rfl⟩) hboth
  | marked starter lock slot =>
    have hboth := hstands.created (Or.inr (Or.inr (Or.inl starter)))
    exact hs.go hboth.1 hboth.1 (Or.inl ⟨rfl, rfl⟩) hboth
  | served starter =>
    have hboth := hstands.created (Or.inr (Or.inr (Or.inr starter)))
    exact hs.go hboth.1 hboth.1 (Or.inl ⟨rfl, rfl⟩) hboth.1
  | failed error starter =>
    have hcreated := (hstands.created starter).1
    refine hs.go hcreated hcreated (Or.inl ⟨rfl, rfl⟩) ?_
    simp only [State.failWith]
    split
    · exact ⟨hcreated, rfl⟩
    · refine ⟨rfl, fun h => ?_⟩
      cases hcreated.symm.trans h
  | destroyed error c result starter caller kind stage =>
    rw [starter] at hstands
    refine hs.go hstands.1 hstands.1 (Or.inl ⟨rfl, rfl⟩) ⟨hstands.2, fun h => ?_⟩
    cases hstands.1.symm.trans h
  | dropped starter owned =>
    rw [starter] at hstands
    refine hs.go hstands hstands (Or.inl ⟨rfl, rfl⟩) ?_
    show Starter.Stands _ _ _ s.starter
    rw [starter]
    exact hstands

theorem staged_calls (hs : Staged s) (h : Calls s t) : Staged t := by
  have hstands := hs.stands
  cases h with
  | called starter owned =>
    rw [starter] at hstands
    exact hs.go hstands hstands (Or.inl ⟨rfl, rfl⟩) hs.stands
  | exits registered alive =>
    have hcreated : s.created = true := by
      by_contra h
      rw [(hs.uncreated (Bool.eq_false_iff.mpr h)).2.2.2.1] at registered
      cases registered
    exact hs.go hcreated hcreated (Or.inl ⟨rfl, rfl⟩) hs.stands
  | takes i c caller stage lock slot =>
    have hcreated := hs.created_of_callers (List.mem_of_getElem? caller)
    refine hs.go hcreated hcreated (Or.inr ⟨rfl, rfl⟩) ?_
    show Starter.Stands s.created false s.owned s.starter
    cases hstarter : s.starter with
    | spawning | receiving | parsing _ | joining _ =>
      rw [hstarter, hcreated] at hstands
      cases hstands.1
    | failed error =>
      rw [hstarter] at hstands
      exact ⟨hstands.1, fun _ => rfl⟩
    | _ =>
      rw [hstarter] at hstands
      exact hstands
  | finds i c caller | joins i c _ caller | releases i c _ caller | abandons i c caller =>
    have hcreated := hs.created_of_callers (List.mem_of_getElem? caller)
    exact hs.go hcreated hcreated (Or.inl ⟨rfl, rfl⟩) hs.stands

theorem staged_step {a : Action} (hs : Staged s) (h : s.step cfg a = some t) : Staged t := by
  obtain hworks | hbegins | hcalls := step_cases h
  · exact hs.elsewhere hworks.elsewhere
  · exact staged_begins hs hbegins
  · exact staged_calls hs hcalls

theorem staged (hs : (machine cfg).Reachable s) : Staged s :=
  Machine.Invariant.holds (m := machine cfg)
    ⟨fun _ h => h ▸ staged_initial, fun _ _ _ _ hs h => staged_step hs h⟩ hs

/-! ### The worker is taken once -/

/-- What `Taken` reads. -/
structure SameTaking (s t : State) : Prop where
  lock : t.lock = s.lock
  slot : t.slot = s.slot
  created : t.created = s.created
  worker : ∀ e, s.worker = .ended e → t.worker = .ended e

theorem Works.sameTaking (h : Works cfg s t) : SameTaking s t :=
  ⟨h.elsewhere.lock, h.elsewhere.slot, h.elsewhere.created, fun e he => absurd he (h.not_ended e)⟩

theorem Taken.same (ht : Taken s) (h : SameTaking s t) (callers : t.callers = s.callers) : Taken t := by
  constructor
  · rw [h.lock, callers]
    exact ht.locked
  · rw [callers, h.lock]
    exact ht.joining
  · rw [callers, h.slot, h.created]
    exact ht.took
  · rw [callers]
    exact ht.begun
  · intro c hc r hr
    rw [callers] at hc
    obtain ⟨hslot, e, he, heq⟩ := ht.returned c hc r hr
    exact ⟨h.slot.trans hslot, e, h.worker e he, heq⟩
  · rw [h.created, h.slot, h.lock]
    intro hcreated hslot hlock
    obtain ⟨e, he⟩ := ht.settled hcreated hslot hlock
    exact ⟨e, h.worker e he⟩

/-- Another caller, who has not begun. -/
theorem Taken.add (ht : Taken s) (stage : d.stage = .locking) (took : d.took = false)
    (callers : t.callers = s.callers ++ [d]) (same : SameTaking s t) : Taken t := by
  constructor
  · intro i hi
    rw [same.lock] at hi
    obtain ⟨c, hc, hstage⟩ := ht.locked i hi
    rw [callers]
    exact ⟨c, Ledger.getElem?_concat_of_some hc, hstage⟩
  · intro i c hc hstage
    rw [callers] at hc
    obtain ⟨rfl, rfl⟩ | hc := Ledger.getElem?_concat_cases hc
    · rw [stage] at hstage
      cases hstage
    · rw [same.lock]
      exact ht.joining i c hc hstage
  · rw [callers, List.countP_append, List.countP_singleton, took, same.slot, same.created]
    exact ht.took
  · intro c hc htook
    rw [callers] at hc
    obtain hc | hc := List.mem_append.mp hc
    · exact ht.begun c hc htook
    · cases List.mem_singleton.mp hc
      cases took.symm.trans htook
  · intro c hc r hr
    rw [callers] at hc
    obtain hc | hc := List.mem_append.mp hc
    · obtain ⟨hslot, e, he, heq⟩ := ht.returned c hc r hr
      exact ⟨same.slot.trans hslot, e, same.worker e he, heq⟩
    · cases List.mem_singleton.mp hc
      rw [stage] at hr
      cases hr
  · rw [same.created, same.slot, same.lock]
    intro hcreated hslot hlock
    obtain ⟨e, he⟩ := ht.settled hcreated hslot hlock
    exact ⟨e, same.worker e he⟩

theorem Taken.dropOwner (ht : Taken s) : Taken s.dropOwner := by
  rw [State.dropOwner]
  split
  · exact ht.add rfl rfl rfl ⟨rfl, rfl, rfl, fun _ he => he⟩
  · exact ht

theorem Taken.not_took (ht : Taken s) (hc : c ∈ s.callers) (h : c.stage = .locking) : c.took = false := by
  by_contra htook
  obtain hstage | ⟨r, hstage⟩ := ht.begun c hc (Bool.not_eq_false _ ▸ htook) <;>
  · rw [h] at hstage
    cases hstage

theorem Taken.slot_of_took (ht : Taken s) (hc : c ∈ s.callers) (h : c.took = true) : s.slot = false := by
  have hcount := ht.took
  have hpos : 0 < s.callers.countP (·.took) := List.countP_pos_iff.mpr ⟨c, hc, h⟩
  cases hslot : s.slot with
  | false => rfl
  | true =>
    have := s.created.toNat_le
    rw [hslot, Bool.toNat_true] at hcount
    omega

/-- A caller that does not have the mutex moves, and does not take it. -/
theorem Taken.move (ht : Taken s) (d : Caller) (caller : s.callers[i]? = some c) (before : c.stage ≠ .joining)
    (after : d.stage ≠ .joining) (took : d.took = c.took) (callers : t.callers = s.callers.set i d)
    (same : SameTaking s t) (begun : c.took = true → ∃ r, d.stage = .returned r)
    (returned : ∀ r, d.stage = .returned r →
      s.slot = false ∧ ∃ e, s.worker = .ended e ∧ r = if c.took then e.joined else .ok ()) : Taken t := by
  constructor
  · intro j hj
    rw [same.lock] at hj
    obtain ⟨e, he, hstage⟩ := ht.locked j hj
    have hij : i ≠ j := fun hij => before (by rw [hij, he] at caller; cases caller; exact hstage)
    rw [callers]
    exact ⟨e, by rw [List.getElem?_set_ne hij]; exact he, hstage⟩
  · intro j e he hstage
    rw [callers] at he
    obtain ⟨rfl, rfl⟩ | ⟨_, he⟩ := Ledger.getElem?_set_cases he
    · exact absurd hstage after
    · rw [same.lock]
      exact ht.joining j e he hstage
  · have hcount := Ledger.countP_set (·.took) d caller
    rw [took, Nat.add_right_cancel_iff] at hcount
    rw [callers, hcount, same.slot, same.created]
    exact ht.took
  · intro e he htook
    rw [callers] at he
    obtain rfl | he := Ledger.mem_of_set he
    · exact Or.inr (begun (took ▸ htook))
    · exact ht.begun e he htook
  · intro e he r hr
    rw [callers] at he
    obtain rfl | he := Ledger.mem_of_set he
    · obtain ⟨hslot, e, he, heq⟩ := returned r hr
      rw [took]
      exact ⟨same.slot.trans hslot, e, same.worker e he, heq⟩
    · obtain ⟨hslot, e, he, heq⟩ := ht.returned e he r hr
      exact ⟨same.slot.trans hslot, e, same.worker e he, heq⟩
  · rw [same.created, same.slot, same.lock]
    intro hcreated hslot hlock
    obtain ⟨e, he⟩ := ht.settled hcreated hslot hlock
    exact ⟨e, same.worker e he⟩

theorem taken_begins (ht : Taken s) (hs : Staged s) (h : Begins cfg s t) : Taken t := by
  have hstands := hs.stands
  have hsame : SameTaking s { s with owned := false } := ⟨rfl, rfl, rfl, fun _ he => he⟩
  cases h with
  | spawned starter =>
    rw [starter] at hstands
    have hcallers := (hs.uncreated hstands.1).2.2.1
    refine ⟨ht.locked, ht.joining, ht.took, ht.begun, fun c hc => ?_, fun h => ?_⟩
    · rw [hcallers] at hc
      cases hc
    · cases hstands.1.symm.trans h
  | parsed started starter =>
    rw [starter] at hstands
    have hcallers := (hs.uncreated hstands.1).2.2.1
    refine ⟨ht.locked, ht.joining, ?_, ht.begun, ?_, nofun⟩
    · rw [hcallers]
      rfl
    · intro c hc
      rw [hcallers] at hc
      cases hc
  | failed error starter => exact (ht.same hsame rfl).dropOwner.same ⟨rfl, rfl, rfl, fun _ he => he⟩ rfl
  | dropped starter owned => exact (ht.same hsame rfl).dropOwner
  | _ => exact ht.same ⟨rfl, rfl, rfl, fun _ he => he⟩ rfl

theorem taken_calls (ht : Taken s) (hs : Staged s) (h : Calls s t) : Taken t := by
  cases h with
  | called starter owned => exact ht.add rfl rfl rfl ⟨rfl, rfl, rfl, fun _ he => he⟩
  | exits registered alive => exact ht.add rfl rfl rfl ⟨rfl, rfl, rfl, fun _ he => he⟩
  | takes i c caller stage lock slot =>
    have hcreated := hs.created_of_callers (List.mem_of_getElem? caller)
    have hfree : ∀ (j : Nat) (e : Caller), s.callers[j]? = some e → e.stage ≠ .joining := by
      intro j e he hstage
      cases (ht.joining j e he hstage).1.symm.trans lock
    constructor
    · rintro j ⟨⟩
      exact ⟨_, Ledger.getElem?_set_of_some caller, rfl⟩
    · intro j e he hstage
      obtain ⟨rfl, rfl⟩ | ⟨_, he⟩ := Ledger.getElem?_set_cases he
      · exact ⟨rfl, rfl⟩
      · exact absurd hstage (hfree j e he)
    · have hcount := Ledger.countP_set (·.took) { c with stage := .joining, took := true } caller
      have htook := ht.took
      rw [ht.not_took (List.mem_of_getElem? caller) stage] at hcount
      rw [slot, hcreated] at htook
      show (s.callers.set i _).countP _ + 0 = s.created.toNat
      rw [hcreated]
      simp only [Bool.false_eq_true, if_false, if_true, Bool.toNat_true] at hcount htook ⊢
      omega
    · intro e he htook
      obtain rfl | he := Ledger.mem_of_set he
      · exact Or.inl rfl
      · exact ht.begun e he htook
    · intro e he r hr
      obtain rfl | he := Ledger.mem_of_set he
      · cases hr
      · exact ⟨rfl, (ht.returned e he r hr).2⟩
    · intro _ _ hlock
      cases hlock
  | finds i c caller stage lock slot =>
    have hcreated := hs.created_of_callers (List.mem_of_getElem? caller)
    have htook := ht.not_took (List.mem_of_getElem? caller) stage
    have hstage : c.stage ≠ .joining := by
      rw [stage]
      nofun
    refine ht.move { c with stage := .returned (.ok ()) } caller hstage nofun rfl rfl ⟨rfl, rfl, rfl, fun _ he => he⟩
      (fun _ => ⟨_, rfl⟩) fun r hr => ?_
    obtain ⟨e, he⟩ := ht.settled hcreated slot lock
    cases hr
    exact ⟨slot, e, he, by rw [htook]; rfl⟩
  | joins i c result caller stage worker =>
    obtain ⟨hlock, htook⟩ := ht.joining i c caller stage
    have hslot := ht.slot_of_took (List.mem_of_getElem? caller) htook
    have hothers : ∀ (j : Nat) (e : Caller), j ≠ i → s.callers[j]? = some e → e.stage ≠ .joining := by
      intro j e hj he hstage
      obtain ⟨hlock', _⟩ := ht.joining j e he hstage
      cases hlock'.symm.trans hlock
      exact hj rfl
    constructor
    · rintro j ⟨⟩
    · intro j e he hstage
      obtain ⟨rfl, rfl⟩ | ⟨hj, he⟩ := Ledger.getElem?_set_cases he
      · cases hstage
      · exact absurd hstage (hothers j e hj he)
    · have hcount := Ledger.countP_set (·.took) { c with stage := .returned result.joined } caller
      rw [Nat.add_right_cancel_iff] at hcount
      exact (congrArg (· + s.slot.toNat) hcount).trans ht.took
    · intro e he htook
      obtain rfl | he := Ledger.mem_of_set he
      · exact Or.inr ⟨_, rfl⟩
      · exact ht.begun e he htook
    · intro e he r hr
      obtain rfl | he := Ledger.mem_of_set he
      · cases hr
        exact ⟨hslot, result, worker, (if_pos htook).symm⟩
      · exact ht.returned e he r hr
    · exact fun _ _ _ => ⟨result, worker⟩
  | releases i c result caller stage =>
    have hstage : c.stage ≠ .joining := by
      rw [stage]
      nofun
    have hmoved := ht.move (t := { s with callers := s.callers.set i { c with holds := false } })
      { c with holds := false } caller hstage hstage rfl rfl ⟨rfl, rfl, rfl, fun _ he => he⟩
      (fun _ => ⟨result, stage⟩) (ht.returned c (List.mem_of_getElem? caller))
    exact hmoved.dropOwner
  | abandons i c caller stage kind =>
    have hstage : c.stage ≠ .joining := by
      rw [stage]
      nofun
    have htook := ht.not_took (List.mem_of_getElem? caller) stage
    have hmoved := ht.move (t := { s with callers := s.callers.set i { c with stage := .abandoned, holds := false } })
      { c with stage := .abandoned, holds := false } caller hstage nofun rfl rfl ⟨rfl, rfl, rfl, fun _ he => he⟩
      (fun h => by cases htook.symm.trans h) nofun
    exact hmoved.dropOwner

theorem taken_step {a : Action} (ht : Taken s) (hs : Staged s) (h : s.step cfg a = some t) : Taken t := by
  obtain hworks | hbegins | hcalls := step_cases h
  · exact ht.same hworks.sameTaking hworks.elsewhere.callers
  · exact taken_begins ht hs hbegins
  · exact taken_calls ht hs hcalls

theorem taken (hs : (machine cfg).Reachable s) : Taken s :=
  Machine.Invariant.holds (m := machine cfg)
    ⟨fun _ h => h ▸ taken_initial, fun _ _ _ hr ht h => taken_step ht (staged hr) h⟩ hs

theorem Ended.joined_error {e : Ended} (h : e.joined ≠ .ok ()) : ∃ error, e.joined = .error error := by
  cases hj : e.joined with
  | ok _ => exact absurd hj h
  | error error => exact ⟨error, rfl⟩

/-- A caller whose call has returned an error. -/
def Caller.reports (c : Caller) : Bool := c.stage matches .returned (.error _)

theorem Taken.took_of_reports (ht : Taken s) (hc : c ∈ s.callers) (h : c.reports = true) : c.took = true := by
  cases hstage : c.stage with
  | returned r =>
    cases r with
    | ok _ =>
      rw [Caller.reports, hstage] at h
      cases h
    | error error =>
      obtain ⟨_, e, _, heq⟩ := ht.returned c hc _ hstage
      by_contra htook
      rw [if_neg htook] at heq
      cases heq
  | _ =>
    rw [Caller.reports, hstage] at h
    cases h

/-- A shutdown that returns, whoever called it, returns when the thread of the worker has ended, with its result or as
one that has come later. One call at most returns an error, and if the removal has failed and everybody has
returned who has begun, one does. -/
theorem shutdown_settles (hs : (machine cfg).Reachable s) :
    (∀ c ∈ s.callers, ∀ r, c.stage = .returned r → ∃ e, s.worker = .ended e ∧ (r = .ok () ∨ r = e.joined)) ∧
      s.callers.countP Caller.reports ≤ 1 ∧
      ∀ e, s.worker = .ended e → e.joined ≠ .ok () → (∃ c ∈ s.callers, ∃ r, c.stage = .returned r) →
        s.lock = none → s.callers.countP Caller.reports = 1 := by
  have ht := taken hs
  have hle : s.callers.countP Caller.reports ≤ s.callers.countP (·.took) :=
    List.countP_mono_left fun c hc h => ht.took_of_reports hc h
  have hone : s.callers.countP (·.took) ≤ 1 := by
    have := ht.took
    cases hcreated : s.created <;> rw [hcreated] at this <;>
      simp only [Bool.toNat_true, Bool.toNat_false] at this <;> omega
  refine ⟨fun c hc r hr => ?_, hle.trans hone, fun e he hfailed hreturned hlock => ?_⟩
  · obtain ⟨_, e, he, heq⟩ := ht.returned c hc r hr
    refine ⟨e, he, ?_⟩
    split at heq
    · exact Or.inr heq
    · exact Or.inl heq
  · obtain ⟨c, hc, r, hr⟩ := hreturned
    have hcount := ht.took
    rw [(ht.returned c hc r hr).1, (staged hs).created_of_callers hc, Bool.toNat_false, Bool.toNat_true] at hcount
    obtain ⟨d, hd, htook⟩ := List.countP_pos_iff.mp (show 0 < s.callers.countP (·.took) by omega)
    refine Nat.le_antisymm (hle.trans hone) (List.countP_pos_iff.mpr ⟨d, hd, ?_⟩)
    obtain hstage | ⟨r', hr'⟩ := ht.begun d hd htook
    · obtain ⟨i, hi⟩ := List.mem_iff_getElem?.mp hd
      cases (ht.joining i d hi hstage).1.symm.trans hlock
    · obtain ⟨_, e', he', heq⟩ := ht.returned d hd r' hr'
      cases he.symm.trans he'
      rw [if_pos htook] at heq
      obtain ⟨error, herror⟩ := Ended.joined_error hfailed
      rw [Caller.reports, hr', heq, herror]

/-- A start that gets through in a second. -/
def exampleConfig : Config := ⟨10 ^ 9, none, fun _ => false⟩

def exampleStart : List Action :=
  [.spawn true, .engineStart (.ok ()), .resolve (.ok ⟨"c".toList, "127.0.0.1".toList, 5433⟩) false 0, .send,
    .receiveStarted, .parse none, .register (.ok ()), .poll, .waited (.ok ()), .check none, .markReady, .poll,
    .finished (.ok ())]

/-- Two shutdowns, the first of which has the mutex, and a removal that fails. -/
def concurrentShutdowns : List Action :=
  exampleStart ++ [.shutdown, .shutdown, .lock 0, .unpark, .remove (.error ⟨"busy".toList⟩), .join 0, .lock 1]

theorem shutdown_settles_concurrent : ∃ s, (machine exampleConfig).run .initial concurrentShutdowns = some s ∧
    s.callers.map (·.stage) = [.returned (.error (.containerRemove ⟨"busy".toList⟩)), .returned (.ok ())] ∧
    s.callers.countP Caller.reports = 1 := by
  refine ⟨_, rfl, rfl, ?_⟩
  have h := shutdown_settles (Machine.reachable_of_run (m := machine exampleConfig) concurrentShutdowns rfl rfl)
  exact h.2.2 (.returned (.error ⟨"busy".toList⟩)) rfl (by decide) ⟨_, List.mem_cons_self, _, rfl⟩ rfl

end PostgresTestHarness.Container
