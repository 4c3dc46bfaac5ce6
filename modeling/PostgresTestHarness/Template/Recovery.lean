import PostgresTestHarness.Template.Undisturbed

/-! What an interrupted attempt leaves behind.

`CREATE DATABASE`, the comment that tags the copy and the drop that compensates for it are
three statements. A copy that was made and neither tagged nor dropped has no record; attempts and
sweeps keep it, and every later attempt at its template fails. Which steps leave such a copy
is told by `abandons`: in a run without them a template's database is absent, or has a record of the
template, or an attempt that is alive is about to tag or drop it. -/
namespace PostgresTestHarness.Template
open SessionLock Postgres

variable {χ : Type} {plan : Plan χ} {s t : State χ} {i : Nat} {n : Node}

/-- Phases with a copy that may have no record. -/
def Phase.untagged : Phase → Bool
  | .tag | .compensate => true
  | _ => false

section Abandons
variable (plan)

/-- A live attempt whose copy has no record. -/
def State.untagged (s : State χ) (i : Nat) : Bool :=
  match s.clients[i]? with
  | some ⟨.attempt node _ _ phase, _, true⟩ =>
    phase.untagged && (s.server.find (plan.request node).name.value).any fun db => db.comment.isNone
  | _ => false

/-- Steps that leave a copy without a record: a session ends that has one in hand, a
`CREATE DATABASE` takes effect and its result is not seen, or a drop that has to compensate for a
failed comment has no effect. -/
def abandons (s : State χ) : Action χ → Bool
  | .lose i => s.untagged plan i
  | .advance i (.failed effect) =>
    match s.clients[i]? with
    | some ⟨.attempt _ _ _ .create, _, true⟩ => effect
    | some ⟨.attempt _ _ _ .compensate, _, true⟩ => !effect && s.untagged plan i
    | _ => false
  | _ => false

/-- The runs in which no copy is abandoned. -/
def careful : Machine (State χ) (Action χ) where
  initial := Initial plan
  step s a := if abandons plan s a then none else step plan s a

end Abandons

theorem careful_step {a : Action χ} (h : (careful plan).step s a = some t) :
    abandons plan s a = false ∧ step plan s a = some t := by
  simpa [careful] using h

theorem reachable_of_careful (hs : (careful plan).Reachable s) : (machine plan).Reachable s := by
  induction hs with
  | start h => exact .start h
  | next a _ h ih => exact .next a ih (careful_step h).2

/-! ### Whose step it is -/

/-- A step leaves the other sessions' programs alone. -/
theorem client_of_other {actor : Option Nat} (h : Transition plan s t actor) (hi : actor ≠ some i) {c : Client Program}
    (hc : s.clients[i]? = some c) : t.clients[i]? = some c := by
  have hlt := (List.getElem?_eq_some_iff.mp hc).1
  have hset : ∀ {j : Nat} {d : Client Program}, t.clients = s.clients.set j d → some j ≠ some i →
      t.clients[i]? = some c := by
    intro j d hclients hji
    rw [hclients, List.getElem?_set_ne fun heq => hji (congrArg some heq)]
    exact hc
  have happend : ∀ {p : Program}, t = s.connect p → t.clients[i]? = some c := by
    intro p ht
    rw [ht, System.connect, List.getElem?_append_left hlt]
    exact hc
  cases h with
  | begun _ _ ht => exact happend ht
  | sweepBegun ht => exact happend ht
  | turned _ _ _ _ _ hclients => exact hset hclients hi
  | swept _ _ hclients => exact hset hclients hi
  | ticked _ _ hclients => exact hset hclients hi
  | wrote _ _ _ _ _ hclients => exact hset hclients hi
  | returned _ _ _ _ hclients => exact hset hclients hi
  | lost _ _ hclients => exact hset hclients hi
  | clientsChanged _ _ _ hclients => rw [hclients]; exact hc
  | performed _ _ hclients => rw [hclients]; exact hc

/-- A live attempt that is about to tag its copy or to drop it. -/
structure State.HasInHand (s : State χ) (i : Nat) (n : Node) : Prop where
  attempt : ∃ c handle now phase, s.Attempts i c n handle now phase ∧ c.connected = true ∧ phase.untagged = true

theorem untagged_eq_true {c : Client Program} {handle : Option Nat} {now : UInt64} {phase : Phase}
    (hc : s.Attempts i c n handle now phase) (hconnected : c.connected = true) (hphase : phase.untagged = true)
    (hdb : Untagged (s.server.find (plan.request n).name.value)) : s.untagged plan i = true := by
  obtain ⟨program, waiting, connected⟩ := c
  obtain ⟨hi, rfl⟩ := hc
  cases hconnected
  obtain ⟨db, hdb, hcomment⟩ := hdb
  rw [State.untagged, hi]
  show (phase.untagged && _) = true
  rw [hphase, hdb, Option.any_some, hcomment]
  rfl

/-- Its own turn tags the copy, drops it, or goes on to drop it. -/
theorem inHand_advance {o : Outcome} (h : step plan s (.advance i o) = some t)
    (habandons : abandons plan s (.advance i o) = false) {c : Client Program} {handle : Option Nat} {now : UInt64}
    {phase : Phase} (hc : s.Attempts i c n handle now phase) (hconnected : c.connected = true)
    (hphase : phase.untagged = true) (hbefore : Untagged (s.server.find (plan.request n).name.value))
    (hafter : Untagged (t.server.find (plan.request n).name.value)) : t.HasInHand i n := by
  have huntagged := untagged_eq_true hc hconnected hphase hbefore
  have hlt := (List.getElem?_eq_some_iff.mp hc.client).1
  obtain ⟨c', d, next, hc', hcode, hadvanced, hclients⟩ :=
    System.advance_eq_some (Option.ite_none_right_eq_some.mp h).2
  rw [hc.client, Option.some.injEq] at hc'
  subst hc'
  rw [hc.program] at hcode
  obtain ⟨next, hnext, rfl⟩ := Option.map_eq_some_iff.mp hcode
  obtain ⟨after, hd, hsame, hturn⟩ := turn_of_advanced hnext hadvanced hc.program
  have hlive : d.connected = true := by
    rw [hsame, hconnected, Bool.true_and]
    cases phase with
    | tag => rfl
    | compensate => rfl
    | _ => cases hphase
  have hthere : after.untagged = true → t.HasInHand i n := fun hafter =>
    ⟨d, handle, now, after, ⟨by rw [hclients, List.getElem?_set_self hlt], hd⟩, hlive, hafter⟩
  obtain ⟨db, hdb, hcomment⟩ := hafter
  have hnotDropped : t.server ≠ s.server.dropDatabase i (plan.request n).name.value := by
    intro hserver
    rw [hserver, Server.find_drop, if_pos rfl] at hdb
    cases hdb
  generalize hserver : t.server = server at hturn
  cases phase with
  | tag =>
    cases hturn with
    | waited hacquires => cases hacquires
    | discarded hreturned => cases hreturned
    | failed => exact hthere rfl
    | tagged _ _ hcases =>
      rw [hserver, Server.find_put, if_pos rfl, Option.some.injEq] at hdb
      rw [← hdb] at hcomment
      cases hcomment
  | compensate =>
    -- the turn was a drop, unless it had no effect
    obtain ⟨program, waiting, connected⟩ := c
    obtain ⟨hi, rfl⟩ := hc
    cases hconnected
    have hrun := (Option.ite_none_right_eq_some.mp h).2
    rw [System.advance, hi] at hrun
    cases o with
    | ok =>
      cases hrun
      exact absurd rfl hnotDropped
    | refused => cases hrun
    | failed effect =>
      cases effect with
      | true =>
        cases hrun
        exact absurd rfl hnotDropped
      | false =>
        rw [abandons, hi] at habandons
        exact absurd (huntagged.symm.trans habandons) Bool.noConfusion
  | _ => cases hphase

theorem initializing_eq_none {c : Client Program} {handle : Option Nat} {now : UInt64} {phase : Phase}
    (hc : s.Attempts i c n handle now phase) (hphase : ∀ done, phase ≠ .initializing done) : s.initializing i = none := by
  cases hx : s.initializing i with
  | none => rfl
  | some found =>
    obtain ⟨d, node, handle', now', done⟩ := found
    obtain ⟨hd, _⟩ := initializing_eq_some hx
    exact absurd (attempts_unique hc hd).2.2.symm (hphase done)

/-- Without an initializer a session takes a turn, looks at its clock, or ends. -/
theorem action_of_own {a : Action χ} (h : step plan s a = some t) (hsession : a.session = some i)
    (hnone : s.initializing i = none) : (∃ o, a = .advance i o) ∨ (∃ now, a = .tick i now) ∨ a = .lose i := by
  have hnobody : ∀ {x}, s.initializing i ≠ some x := fun hx => by cases hnone.symm.trans hx
  cases a with
  | advance j o =>
    cases hsession
    exact Or.inl ⟨o, rfl⟩
  | tick j now =>
    cases hsession
    exact Or.inr (Or.inl ⟨now, rfl⟩)
  | lose j =>
    cases hsession
    exact Or.inr (Or.inr rfl)
  | write j =>
    cases hsession
    obtain ⟨_, hx, _⟩ := Option.bind_eq_some_iff.mp h
    exact absurd hx hnobody
  | initialized j =>
    cases hsession
    obtain ⟨_, hx, _⟩ := Option.bind_eq_some_iff.mp h
    exact absurd hx hnobody
  | initializerFailed j =>
    cases hsession
    obtain ⟨_, hx, _⟩ := Option.map_eq_some_iff.mp h
    exact absurd hx hnobody
  | _ => cases hsession

/-- A copy without a record stays in hand, until it is tagged or dropped. -/
theorem inHand_next {a : Action χ} (h : step plan s a = some t) (habandons : abandons plan s a = false)
    (hi : s.HasInHand i n) (hbefore : Untagged (s.server.find (plan.request n).name.value))
    (hafter : Untagged (t.server.find (plan.request n).name.value)) : t.HasInHand i n := by
  obtain ⟨c, handle, now, phase, hc, hconnected, hphase⟩ := hi
  have huntagged := untagged_eq_true hc hconnected hphase hbefore
  have hlt := (List.getElem?_eq_some_iff.mp hc.client).1
  by_cases hsession : a.session = some i
  swap
  · exact ⟨c, handle, now, phase, ⟨client_of_other (step_transition h) hsession hc.client, hc.program⟩,
      hconnected, hphase⟩
  have hnone : s.initializing i = none := initializing_eq_none hc fun done heq => by
    rw [heq] at hphase
    cases hphase
  -- only a turn of its own can go on from there
  rcases action_of_own h hsession hnone with ⟨o, rfl⟩ | ⟨now', rfl⟩ | rfl
  · exact inHand_advance h habandons hc hconnected hphase hbefore hafter
  · obtain ⟨d, hd, h⟩ := Option.bind_eq_some_iff.mp h
    rw [hc.client, Option.some.injEq] at hd
    subst hd
    rw [hc.program] at h
    split at h
    · rename_i heq _
      cases heq
      cases h
      exact ⟨_, handle, now', phase, ⟨List.getElem?_set_self hlt, rfl⟩, hconnected, hphase⟩
    · cases h
  · rw [abandons, huntagged] at habandons
    cases habandons

/-- A copy that is made and can be seen is in hand. -/
theorem inHand_created {a : Action χ} (h : step plan s a = some t) (habandons : abandons plan s a = false)
    (hsession : a.session = some i) {c : Client Program} {handle : Option Nat} {now : UInt64}
    (hc : s.Attempts i c n handle now .create) (hconnected : c.connected = true)
    (hchanged : t.server.find (plan.request n).name.value ≠ s.server.find (plan.request n).name.value) :
    t.HasInHand i n := by
  have hnone : s.initializing i = none := initializing_eq_none hc nofun
  obtain ⟨program, waiting, connected⟩ := c
  obtain ⟨hi, rfl⟩ := hc
  cases hconnected
  have hlt := (List.getElem?_eq_some_iff.mp hi).1
  rcases action_of_own h hsession hnone with ⟨o, rfl⟩ | ⟨now', rfl⟩ | rfl
  · have hrun := (Option.ite_none_right_eq_some.mp h).2
    rw [System.advance, hi] at hrun
    cases o with
    | ok =>
      obtain ⟨⟨server, d⟩, hexecute, heq⟩ := Option.map_eq_some_iff.mp hrun
      obtain ⟨_, _, hd⟩ := Option.map_eq_some_iff.mp hexecute
      cases hd
      cases heq
      exact ⟨_, handle, now, .tag, ⟨List.getElem?_set_self hlt, rfl⟩, rfl, rfl⟩
    | refused =>
      cases hrun
      exact absurd rfl hchanged
    | failed effect =>
      rw [abandons, hi] at habandons
      cases (show effect = false from habandons)
      cases hrun
      exact absurd rfl hchanged
  · have hrun : s.tick i now' = some t := h
    rw [State.tick, hi] at hrun
    cases waiting
    · cases hrun
      exact absurd rfl hchanged
    · cases hrun
  · obtain ⟨_, _, hserver, _⟩ := System.lose_eq_some h
    exact absurd (by rw [hserver]; rfl) hchanged

/-! ### What is left -/

/-- A copy without a record is in hand. -/
def Tended (plan : Plan χ) (s : State χ) : Prop :=
  ∀ n ∈ plan.nodes, Untagged (s.server.find (plan.request n).name.value) → ∃ i, s.HasInHand i n

/-- A turn that leaves a database without a record made it, or found it without one. -/
theorem turn_untagged {u v : Server χ} {now : UInt64} {connected : Bool} {phase next : Phase}
    (h : Turn (plan.request n) now i connected u phase v next)
    (hafter : Untagged (v.find (plan.request n).name.value)) :
    (phase = .create ∧ u.find (plan.request n).name.value = none) ∨ Untagged (u.find (plan.request n).name.value) := by
  obtain ⟨db, hdb, hcomment⟩ := hafter
  have hput : ∀ {changed : Database χ},
      (u.put (plan.request n).name.value changed).find (plan.request n).name.value = some db →
      changed.comment = none := by
    intro changed hdb
    rw [Server.find_put, if_pos rfl, Option.some.injEq] at hdb
    exact hdb ▸ hcomment
  rcases h.edit with hsame | ⟨_, hedit⟩
  · exact Or.inr ⟨db, hsame.find _ ▸ hdb, hcomment⟩
  cases hedit with
  | dropped =>
    rw [Server.find_drop, if_pos rfl] at hdb
    cases hdb
  | created hcreate => exact Or.inl ⟨rfl, (Server.createDatabase_eq_some.mp hcreate).1⟩
  | tagged => cases hput hdb
  | taggedReady => cases hput hdb
  | @disabled before hbefore =>
    have hnone := hput hdb
    exact Or.inr ⟨before, hbefore, hnone⟩
  | terminated =>
    rw [Server.terminate] at hdb
    split at hdb
    · rename_i before hbefore
      have hnone := hput hdb
      exact Or.inr ⟨before, hbefore, hnone⟩
    · exact Or.inr ⟨db, hdb, hcomment⟩

theorem tended_step {a : Action χ} (hs : (machine plan).Reachable s) (ih : Tended plan s) (h : step plan s a = some t)
    (habandons : abandons plan s a = false) : Tended plan t := by
  intro n hn hafter
  have htransition := step_transition h
  -- a copy that was there before
  have hold : Untagged (s.server.find (plan.request n).name.value) → ∃ i, t.HasInHand i n := fun hbefore => by
    obtain ⟨i, hi⟩ := ih n hn hbefore
    exact ⟨i, inHand_next h habandons hi hbefore hafter⟩
  have hother := hafter
  obtain ⟨db, hdb, hcomment⟩ := hafter
  cases change_of_transition (recorded hs) htransition hn with
  | same hsame => exact hold (hsame ▸ hother)
  | clients hbefore _ hafter =>
    cases hafter.symm.trans hdb
    exact hold ⟨_, hbefore, hcomment⟩
  | wrote _ _ _ hbefore _ hafter =>
    cases hafter.symm.trans hdb
    exact hold ⟨_, hbefore, hcomment⟩
  | swept _ _ _ _ hafter =>
    rw [hafter] at hdb
    cases hdb
  | turned hactor hc hconnected _ _ hturn =>
    rcases turn_untagged hturn hother with ⟨rfl, hnone⟩ | hbefore
    · refine ⟨_, inHand_created h habandons hactor hc hconnected fun heq => ?_⟩
      cases hdb.symm.trans (heq.trans hnone)
    · exact hold hbefore

theorem tended (hs : (careful plan).Reachable s) : Tended plan s := by
  refine Machine.Invariant.holds (m := careful plan) ⟨fun s h n hn hfound => ?_, fun s a t hreach ih h => ?_⟩ hs
  · obtain ⟨db, hdb, _⟩ := hfound
    rw [(show Initial plan s from h).absent n hn] at hdb
    cases hdb
  · obtain ⟨habandons, h⟩ := careful_step h
    exact tended_step (reachable_of_careful hreach) ih h habandons

/-- Whoever has a copy in hand is alone with its template's lock. -/
theorem inHand_alone (hs : Tidy plan s) {j : Nat} (hj : s.HasInHand j n) {c : Client Program}
    {handle : Option Nat} {now : UInt64} {phase : Phase} (hc : s.Attempts i c n handle now phase)
    (hconnected : c.connected = true) {l : List (Int64 × Mode)} (hl : holds (plan.request n) phase = some l)
    (hmem : ((plan.request n).lockKey, .exclusive) ∈ l) : j = i := by
  obtain ⟨d, handle', now', phase', hd, hconnected', hphase⟩ := hj
  have hheld : ∃ m, holds (plan.request n) phase' = some m ∧ ((plan.request n).lockKey, .exclusive) ∈ m := by
    cases phase' with
    | tag => exact ⟨_, rfl, List.mem_cons_self ..⟩
    | compensate => exact ⟨_, rfl, List.mem_cons_self ..⟩
    | _ => cases hphase
  obtain ⟨m, hm, hmem'⟩ := hheld
  exact hs.exclusive hc.client hconnected (by rw [hc.program]; exact hl) hmem hd.client hconnected'
    (by rw [hd.program]; exact hm) hmem'

/-- It is about to tag or drop the copy. -/
theorem State.HasInHand.phase (hi : s.HasInHand i n) {c : Client Program} {handle : Option Nat} {now : UInt64}
    {phase : Phase} (hc : s.Attempts i c n handle now phase) : c.connected = true ∧ phase.untagged = true := by
  obtain ⟨d, handle', now', phase', hd, hconnected, hphase⟩ := hi
  obtain ⟨rfl, _, rfl⟩ := attempts_unique hc hd
  exact ⟨hconnected, hphase⟩

/-- What an attempt finds under its exclusive lock is not there, or can be recovered. -/
theorem found_recoverable (hs : (careful plan).Reachable s) {c : Client Program} {handle : Option Nat} {now : UInt64}
    (hc : s.Attempts i c n handle now .findExisting) (hconnected : c.connected = true) {db : Database χ}
    (hdb : s.server.find (plan.request n).name.value = some db) :
    (plan.request n).recoverable (Server.record (plan.request n).name.value db) = true := by
  have hreach := reachable_of_careful hs
  have hr := recorded hreach
  have hn := hr.member _ _ _ _ _ _ hc
  cases hcomment : db.comment with
  | none =>
    obtain ⟨j, hj⟩ := tended hs n hn ⟨db, hdb, hcomment⟩
    obtain rfl := inHand_alone (tidy hreach) hj hc hconnected rfl (List.mem_cons_self ..)
    cases (hj.phase hc).2
  | some text =>
    obtain ⟨state, created, rfl⟩ := hr.own n hn db hdb text hcomment
    cases state with
    | initializing =>
      refine recoverable_iff.mpr ⟨created, ?_⟩
      show db.comment.bind _ = _
      rw [hcomment, Option.bind_some, ResourceMetadata.parse_encode]
    | ready => exact absurd ⟨created, hcomment⟩ ((sound hreach).facts _ _ _ _ _ _ hc hconnected db hdb)

theorem Turn.inconsistent {r : Request} {now : UInt64} {connected : Bool} {u v : Server χ} {phase : Phase}
    (h : Turn r now i connected u phase v (.stopped .begin .inconsistentMetadata)) :
    phase = .stopped .begin .inconsistentMetadata ∨
      phase = .findExisting ∧ connected = true ∧ ∃ db, u.find r.name.value = some db ∧
        r.recoverable (Server.record r.name.value db) = false := by
  rcases h.marked rfl with ⟨hconnected, hphase, hsearch⟩ | ⟨_, hnext, _⟩ | ⟨_, hnext⟩
  · cases hdb : u.find r.name.value with
    | none =>
      rw [hdb] at hsearch
      cases hsearch
    | some db =>
      rw [hdb, Option.map_some, Request.existing] at hsearch
      refine Or.inr ⟨hphase, hconnected, db, rfl, Bool.eq_false_iff.mpr fun hrecoverable => ?_⟩
      rw [if_pos hrecoverable] at hsearch
      cases hsearch
  · cases hnext
  · cases hnext

theorem stopped_of_returned {phase : Phase} {part : Part} {failure : Failure}
    (h : phase.returned = some (some (part, failure))) : phase = .stopped part failure := by
  cases phase with
  | stopped =>
    cases h
    rfl
  | aborted => cases h
  | _ => cases h

/-- No attempt finds a database that it does not know. -/
theorem never_inconsistent (hs : (careful plan).Reachable s) {c : Client Program} {handle : Option Nat} {now : UInt64}
    {phase : Phase} (hc : s.Attempts i c n handle now phase) : ¬ Over (some (.begin, .inconsistentMetadata)) phase := by
  suffices ∀ i c n handle now phase, s.Attempts i c n handle now phase →
    ¬ Over (some (.begin, .inconsistentMetadata)) phase from this i c n handle now phase hc
  refine Machine.Invariant.holds (m := careful plan) (I := fun s => ∀ i c n handle now phase,
    s.Attempts i c n handle now phase → ¬ Over (some (.begin, .inconsistentMetadata)) phase)
    ⟨fun s h i c n handle now phase hc => ?_, fun s a t hreach ih h i d n handle now phase hd hover => ?_⟩ hs
  · have := hc.client
    rw [(show Initial plan s from h).clients] at this
    cases this
  · cases course_of_transition (step_transition (careful_step h).2) hd with
    | begun => exact hover.not_working rfl nofun
    | turned hc _ hturn =>
      rcases hover with hreturned | hdiscarded
      · obtain rfl := stopped_of_returned hreturned
        rcases hturn.inconsistent with rfl | ⟨rfl, hconnected, db, hdb, hnot⟩
        · exact ih _ _ _ _ _ _ hc (.returned rfl)
        · rw [found_recoverable hreach hc hconnected hdb] at hnot
          cases hnot
      · exact ih _ _ _ _ _ _ hc (.returned (hturn.returned_of_discarded hdiscarded))
    | wrote => exact hover.not_working rfl nofun
    | returned _ _ hphase =>
      rcases hphase with ⟨rfl, _⟩ | rfl
      · exact hover.not_working rfl nofun
      · exact hover.not_working rfl nofun
    | stayed hc => exact ih _ _ _ _ _ _ hc hover

/-! ### Interruptions -/

/-- What an interruption may leave of a template: nothing, or a database with a record of it. -/
def Left (plan : Plan χ) (n : Node) (found : Option (Database χ)) : Prop :=
  ∀ db, found = some db → Tagged plan n .initializing db ∨ Tagged plan n .ready db

theorem left_or_untagged (hs : Recorded plan s) (hn : n ∈ plan.nodes) :
    Left plan n (s.server.find (plan.request n).name.value) ∨ Untagged (s.server.find (plan.request n).name.value) := by
  rcases found_cases hs hn with hrecoverable | ⟨db, hdb, hready⟩ | huntagged
  · exact Or.inl fun found hfound => Or.inl (hrecoverable found hfound)
  · refine Or.inl fun found hfound => ?_
    cases hdb.symm.trans hfound
    exact Or.inr hready
  · exact Or.inr huntagged

theorem not_left {found : Option (Database χ)} (h : Untagged found) : ¬ Left plan n found := by
  obtain ⟨db, hdb, hcomment⟩ := h
  intro hleft
  rcases hleft db hdb with ⟨_, htagged⟩ | ⟨_, htagged⟩ <;> cases hcomment.symm.trans htagged

/-- A session that gives its copy up leaves nobody who has it in hand. -/
theorem not_inHand_given_up {a : Action χ} (hs : (machine plan).Reachable s) (h : step plan s a = some t)
    (hsession : a.session = some i) {c d : Client Program} {handle : Option Nat} {now : UInt64} {phase : Phase}
    (hc : s.Attempts i c n handle now phase) (hconnected : c.connected = true) {l : List (Int64 × Mode)}
    (hl : holds (plan.request n) phase = some l) (hmem : ((plan.request n).lockKey, .exclusive) ∈ l)
    {phase' : Phase} (hd : t.Attempts i d n handle now phase') (hup : d.connected = false ∨ phase'.untagged = false)
    {j : Nat} : ¬ t.HasInHand j n := by
  intro hj
  by_cases hij : j = i
  · subst hij
    obtain ⟨hlive, huntagged⟩ := hj.phase hd
    rw [hlive, huntagged] at hup
    rcases hup with hup | hup <;> cases hup
  · -- another session had it in hand before
    obtain ⟨e, handle', now', phase'', he, hlive, huntagged⟩ := hj
    have hother : a.session ≠ some j := fun heq => hij (Option.some.inj (heq.symm.trans hsession))
    have hbefore : s.HasInHand j n := by
      cases hx : s.clients[j]? with
      | some x =>
        obtain rfl := Option.some.inj ((client_of_other (step_transition h) hother hx).symm.trans he.client)
        exact ⟨x, handle', now', phase'', ⟨hx, he.program⟩, hlive, huntagged⟩
      | none =>
        have hthere : ∀ {c' : Client Program} {now phase}, s.Attempts j c' n handle' now phase → False :=
          fun hc' => by cases hx.symm.trans hc'.client
        cases course_of_transition (step_transition h) he with
        | begun => cases huntagged
        | turned hc' => exact (hthere hc').elim
        | wrote hc' => exact (hthere hc').elim
        | returned hc' => exact (hthere hc').elim
        | stayed hc' => exact (hthere hc').elim
    exact hij (inHand_alone (tidy hs) hbefore hc hconnected hl hmem)

/-- A step that abandons a copy leaves a database without a record, and nobody who has it in hand. -/
theorem abandoned {a : Action χ} (hs : (machine plan).Reachable s) (h : step plan s a = some t)
    (habandons : abandons plan s a = true) : ∃ n ∈ plan.nodes,
      Untagged (t.server.find (plan.request n).name.value) ∧ ∀ i, ¬ t.HasInHand i n := by
  have hmember := (recorded hs).member
  -- the copy of an attempt that is about to tag or drop it
  have hcopy : ∀ {i}, s.untagged plan i = true → ∃ c n handle now phase, s.Attempts i c n handle now phase ∧
      c.connected = true ∧ phase.untagged = true ∧ Untagged (s.server.find (plan.request n).name.value) := by
    intro i huntagged
    rw [State.untagged] at huntagged
    split at huntagged
    · rename_i n handle now phase waiting hc
      obtain ⟨hphase, hdb⟩ := Bool.and_eq_true_iff.mp huntagged
      obtain ⟨db, hdb, hcomment⟩ := (Option.any_eq_true _ _).mp hdb
      exact ⟨_, n, handle, now, phase, ⟨hc, rfl⟩, rfl, hphase, db, hdb, Option.isNone_iff_eq_none.mp hcomment⟩
    · cases huntagged
  have hholds : ∀ {n phase}, Phase.untagged phase = true → ∃ l, holds (plan.request n) phase = some l ∧
      ((plan.request n).lockKey, .exclusive) ∈ l := by
    intro n phase hphase
    cases phase with
    | tag => exact ⟨_, rfl, List.mem_cons_self ..⟩
    | compensate => exact ⟨_, rfl, List.mem_cons_self ..⟩
    | _ => cases hphase
  cases a with
  | lose i =>
    obtain ⟨c, n, handle, now, phase, hc, hconnected, hphase, hdb⟩ := hcopy habandons
    obtain ⟨l, hl, hmem⟩ := hholds hphase
    obtain ⟨c', hc', hserver, hclients⟩ := System.lose_eq_some h
    have hlt := (List.getElem?_eq_some_iff.mp hc.client).1
    have hd : t.Attempts i { c' with connected := false, waiting := false } n handle now phase := by
      refine ⟨by rw [hclients, List.getElem?_set_self hlt], ?_⟩
      rw [← Option.some.inj (hc.client.symm.trans hc')]
      exact hc.program
    exact ⟨n, hmember _ _ _ _ _ _ hc, by rw [hserver]; exact hdb,
      fun j => not_inHand_given_up hs h rfl hc hconnected hl hmem hd (Or.inl rfl)⟩
  | advance i o =>
    cases o with
    | ok => cases habandons
    | refused => cases habandons
    | failed effect =>
      have hrun := (Option.ite_none_right_eq_some.mp h).2
      rw [abandons] at habandons
      split at habandons
      · -- a database that was made unseen
        rename_i n handle now waiting hi
        subst habandons
        rw [System.advance, hi] at hrun
        obtain ⟨⟨server, d⟩, hexecute, heq⟩ := Option.map_eq_some_iff.mp hrun
        obtain ⟨⟨_, _⟩, hcreated, hd⟩ := Option.map_eq_some_iff.mp hexecute
        obtain ⟨_, hcreate, hanswer⟩ : ∃ u, s.server.createDatabase (plan.request n).name.value
            (plan.request n).source = some u ∧ (u, ()) = _ := Option.map_eq_some_iff.mp hcreated
        cases hanswer
        cases hd
        cases heq
        have hlt := (List.getElem?_eq_some_iff.mp hi).1
        obtain ⟨_, original, _, _, rfl⟩ := Server.createDatabase_eq_some.mp hcreate
        exact ⟨n, hmember _ _ _ _ _ _ ⟨hi, rfl⟩, ⟨_, (Server.find_put _ _ _).trans (if_pos rfl), rfl⟩,
          fun j => not_inHand_given_up hs h rfl ⟨hi, rfl⟩ rfl rfl (List.mem_cons_self ..)
            ⟨List.getElem?_set_self hlt, rfl⟩ (Or.inr rfl)⟩
      · -- a drop without effect
        rename_i n handle now waiting hi
        obtain ⟨heffect, huntagged⟩ := Bool.and_eq_true_iff.mp habandons
        obtain rfl := (Bool.not_eq_true' _).mp heffect
        obtain ⟨c, m, _, _, _, hc, _, _, hdb⟩ := hcopy huntagged
        obtain ⟨_, rfl, _⟩ := attempts_unique ⟨hi, rfl⟩ hc
        rw [System.advance, hi] at hrun
        cases hrun
        have hlt := (List.getElem?_eq_some_iff.mp hi).1
        exact ⟨m, hmember _ _ _ _ _ _ ⟨hi, rfl⟩, hdb,
          fun j => not_inHand_given_up hs h rfl ⟨hi, rfl⟩ rfl rfl (List.mem_cons_self ..)
            ⟨List.getElem?_set_self hlt, rfl⟩ (Or.inr rfl)⟩
      · cases habandons
  | _ => cases habandons

/-- What holds of a template's database where no copy was abandoned. -/
def Settled (plan : Plan χ) (s : State χ) : Prop :=
  ∀ n ∈ plan.nodes, Left plan n (s.server.find (plan.request n).name.value) ∨ ∃ i, s.HasInHand i n

theorem settled (hs : (machine plan).Reachable s) (htended : Tended plan s) : Settled plan s :=
  fun n hn => (left_or_untagged (recorded hs) hn).imp_right (htended n hn)

/-- A step keeps to it if and only if it abandons no copy. -/
theorem settled_step_iff {a : Action χ} (hs : (careful plan).Reachable s) (h : step plan s a = some t) :
    abandons plan s a = false ↔ Settled plan t := by
  have hreach := reachable_of_careful hs
  refine ⟨fun hkept => settled (hreach.next a h) (tended_step hreach (tended hs) h hkept), fun hall => ?_⟩
  by_contra habandons
  obtain ⟨n, hn, huntagged, hnobody⟩ := abandoned hreach h (Bool.not_eq_false _ ▸ habandons)
  rcases hall n hn with hleft | ⟨i, hi⟩
  · exact not_left huntagged hleft
  · exact hnobody i hi

section Careful
variable (harness : Nat → Nat) (plan : Plan χ)

def Gated.abandons (s : Gated χ) : GatedAction χ → Bool
  | .act a => Template.abandons plan s.base (s.admitted harness a)
  | .closeAdmission _ => false

/-- The runs behind the gates in which no copy is abandoned. -/
def carefulGated : Machine (Gated χ) (GatedAction χ) where
  initial s := Initial plan s.base ∧ s.closed = []
  step s a := if s.abandons harness plan a then none else s.step harness plan a

end Careful

section Gated
variable {harness : Nat → Nat} {s t : Gated χ}

theorem carefulGated_step {a : GatedAction χ} (h : (carefulGated harness plan).step s a = some t) :
    s.abandons harness plan a = false ∧ s.step harness plan a = some t := by
  simpa [carefulGated] using h

theorem reachable_of_carefulGated (hs : (carefulGated harness plan).Reachable s) : (gated harness plan).Reachable s := by
  induction hs with
  | start h => exact .start h
  | next a _ hstep ih => exact .next a ih (carefulGated_step hstep).2

theorem careful_base (hs : (carefulGated harness plan).Reachable s) : (careful plan).Reachable s.base := by
  induction hs with
  | start h => exact .start h.1
  | @next s t a _ hstep ih =>
    obtain ⟨hkept, hstep⟩ := carefulGated_step hstep
    cases a with
    | act a =>
      obtain ⟨base, hbase, heq⟩ := Option.map_eq_some_iff.mp hstep
      cases heq
      refine .next (s.admitted harness a) ih (?_ : (if abandons plan s.base _ = true then none else _) = _)
      rw [show abandons plan s.base (s.admitted harness a) = false from hkept, if_neg Bool.false_ne_true]
      exact hbase
    | closeAdmission h =>
      cases hstep
      exact ih

/-- The gates change nothing about a template's database. -/
theorem settled_gated_iff {a : GatedAction χ} (hs : (careful plan).Reachable s.base)
    (hstep : (gated harness plan).step s a = some t) : s.abandons harness plan a = false ↔ Settled plan t.base := by
  cases a with
  | act a =>
    obtain ⟨base, hbase, heq⟩ := Option.map_eq_some_iff.mp hstep
    cases heq
    exact settled_step_iff hs hbase
  | closeAdmission h =>
    cases hstep
    exact iff_of_true rfl (settled (reachable_of_careful hs) (tended hs))

/-- An attempt that begins when nobody else has or wants its locks comes, by turns that succeed, to what
the database that it finds and its harness's gate let it return. -/
theorem returns (hs : (gated harness plan).Reachable s) {handle : Option Nat}
    {now : UInt64} (hclient : s.base.clients[i]? = some ⟨.attempt n handle now (.lockShared .first), false, true⟩)
    (hsource : s.base.hasSource n handle = true) (halone : Undisturbed (plan.request n) i s.base.server.locks) :
    Leads harness plan i n handle now (s.base.server.find (plan.request n).name.value) s.base.server.nextOid s.closed
      s.base := leads_start ⟨reachable_base hs, hclient, hsource, halone, rfl, rfl⟩

/-- Whatever has interrupted earlier attempts, a template's database is absent, or has a record of the
template, or none. It has none only in the hand of a live attempt that is about to tag or drop it, or
after a step that has abandoned a copy. A later attempt that nobody disturbs returns, by its own
succeeding statements, the template ready or a fresh copy of its source, but for two errors: a
database without a record is kept and refused, and a closed gate lets nobody create. -/
theorem interrupted_template_recovers (hs : (gated harness plan).Reachable s) :
    (∀ n ∈ plan.nodes, Left plan n (s.base.server.find (plan.request n).name.value) ∨
      Untagged (s.base.server.find (plan.request n).name.value)) ∧
    ((carefulGated harness plan).Reachable s → Settled plan s.base ∧
      (∀ i c n handle now phase, s.base.Attempts i c n handle now phase →
        ¬ Over (some (.begin, .inconsistentMetadata)) phase) ∧
      ∀ a t, (gated harness plan).step s a = some t → (s.abandons harness plan a = false ↔ Settled plan t.base)) ∧
    (∀ i n handle now, s.base.clients[i]? = some ⟨.attempt n handle now (.lockShared .first), false, true⟩ →
      s.base.hasSource n handle = true → Undisturbed (plan.request n) i s.base.server.locks →
      ∃ turns t phase,
        (gated harness plan).run s (List.replicate turns (.act (.advance i .ok))) = some ⟨t, s.closed⟩ ∧
        t.clients[i]? = some ⟨.attempt n handle now phase, false, true⟩ ∧
        Returns plan n (!s.closed.contains (harness i)) (s.base.server.find (plan.request n).name.value)
          s.base.server.nextOid phase (t.server.find (plan.request n).name.value)) ∧
    ∀ a t, (gated harness plan).step s a = some t → ∀ h ∈ s.closed, h ∈ t.closed := by
  have hreach := reachable_base hs
  exact ⟨fun n hn => left_or_untagged (recorded hreach) hn,
    fun hcareful => ⟨settled hreach (tended (careful_base hcareful)),
      fun i c n handle now phase => never_inconsistent (careful_base hcareful),
      fun a t => settled_gated_iff (careful_base hcareful)⟩,
    fun i n handle now => returns hs, fun a t hstep h => closed_step hstep⟩

end Gated

/-- All sessions are of one harness. -/
def oneHarness (_ : Nat) : Nat := 0

/-- An attempt at the root that has tagged its copy, and ends; and another one that begins. -/
def interruptTagged : List (GatedAction Nat) :=
  List.map .act
    (.begin rootNode none 100 :: List.replicate 17 (.advance 0 .ok) ++ [.lose 0, .begin rootNode none 101])

/-- No copy is abandoned, and the second attempt comes to a new copy of `template0`. -/
theorem interrupted_template_recovers_root : ∃ (s : Gated Nat) (t : State Nat),
    (carefulGated oneHarness samplePlan).Reachable s ∧ Settled samplePlan s.base ∧
    (∃ db, s.base.server.find (samplePlan.request rootNode).name.value = some db ∧
      Tagged samplePlan rootNode .initializing db) ∧
    ∃ turns db, (gated oneHarness samplePlan).run s (List.replicate turns (.act (.advance 1 .ok))) = some ⟨t, []⟩ ∧
      t.clients[1]? = some ⟨.attempt rootNode none 101 (.initializing 0), false, true⟩ ∧
      t.server.find (samplePlan.request rootNode).name.value = some db ∧ db.content = 1 := by
  have hrun : ((carefulGated oneHarness samplePlan).run ⟨start, []⟩ interruptTagged).any (fun s =>
      s.base.clients[1]? == some ⟨.attempt rootNode none 101 (.lockShared .first), false, true⟩ &&
        s.base.server.locks == Table.empty && s.closed == [] &&
        (s.base.server.find (samplePlan.request rootNode).name.value).any fun db =>
          db.comment == some ((samplePlan.request rootNode).metadata .initializing 100).encode) = true := by
    decide +kernel
  obtain ⟨s, hs, hall⟩ := (Option.any_eq_true _ _).mp hrun
  obtain ⟨hall, hfound⟩ := Bool.and_eq_true_iff.mp hall
  obtain ⟨hall, hclosed⟩ := Bool.and_eq_true_iff.mp hall
  obtain ⟨hclient, hlocks⟩ := Bool.and_eq_true_iff.mp hall
  obtain ⟨db, hdb, hcomment⟩ := (Option.any_eq_true _ _).mp hfound
  have htagged : Tagged samplePlan rootNode .initializing db := ⟨100, beq_iff_eq.mp hcomment⟩
  have hcareful := Machine.reachable_of_run (m := carefulGated oneHarness samplePlan) _ ⟨start_initial, rfl⟩ hs
  have halone : Undisturbed (samplePlan.request rootNode) 1 s.base.server.locks := by
    rw [beq_iff_eq.mp hlocks]
    intro l hl
    rcases hl with hl | hl <;> cases hl
  obtain ⟨_, hsettled, hrecovers, _⟩ := interrupted_template_recovers (reachable_of_carefulGated hcareful)
  obtain ⟨turns, t, phase, hturns, hthere, hreturns⟩ := hrecovers 1 rootNode none 101 (beq_iff_eq.mp hclient) rfl halone
  rw [beq_iff_eq.mp hclosed] at hturns hreturns
  generalize hafter : t.server.find (samplePlan.request rootNode).name.value = after at hreturns
  cases hreturns with
  | ready hbefore hready =>
    cases hdb.symm.trans hbefore
    cases htagged.unique hready
  | unknown huntagged =>
    obtain ⟨before, hbefore, hnone⟩ := huntagged
    cases hdb.symm.trans hbefore
    cases hnone.symm.trans (beq_iff_eq.mp hcomment)
  | rejected _ hopen => cases hopen
  | fresh _ _ _ hcontent =>
    exact ⟨s, t, hcareful, (hsettled hcareful).1, ⟨db, hdb, htagged⟩, turns, _, hturns, hthere, hafter, hcontent⟩

/-- An attempt at the root whose session ends when the copy is made and not yet tagged. -/
def interruptCopied : List (GatedAction Nat) :=
  List.map .act (.begin rootNode none 100 :: List.replicate 16 (.advance 0 .ok) ++ [.lose 0])

/-- An attempt at the root whose client gives up on a `CREATE DATABASE` that has no effect. -/
def interruptCreation : List (GatedAction Nat) :=
  List.map .act (.begin rootNode none 100 :: List.replicate 15 (.advance 0 .ok) ++
    [.advance 0 (.failed false), .advance 0 .ok, .advance 0 .ok])

/-- The next attempt, whose statements all succeed. -/
def attemptAgain (turns : Nat) : List (GatedAction Nat) :=
  List.map .act (.begin rootNode none 101 :: List.replicate turns (.advance 1 .ok))

/-- After the first it finds a database that it does not know; after the second there is none, but the gate
of the harness is closed. -/
theorem interrupted_copy_blocks :
    (∃ s t : Gated Nat, (gated oneHarness samplePlan).Reachable s ∧ s.base.server.locks = Table.empty ∧
      (∃ db, s.base.server.find (samplePlan.request rootNode).name.value = some db ∧ db.comment = none) ∧
      (gated oneHarness samplePlan).run s (attemptAgain 14) = some t ∧ t.base.clients[1]? =
        some ⟨.attempt rootNode none 101 (.stopped .begin .inconsistentMetadata), false, true⟩) ∧
    ∃ s t : Gated Nat, (gated oneHarness samplePlan).Reachable s ∧ s.base.server.locks = Table.empty ∧
      s.base.server.find (samplePlan.request rootNode).name.value = none ∧
      (gated oneHarness samplePlan).run s (attemptAgain 15) = some t ∧ t.base.clients[1]? =
        some ⟨.attempt rootNode none 101 (.stopped .begin .connectionBudgetClosed), false, true⟩ := by
  have hcopied : ((gated oneHarness samplePlan).run ⟨start, []⟩ interruptCopied).any (fun s =>
      s.base.server.locks == Table.empty &&
      ((s.base.server.find (samplePlan.request rootNode).name.value).any fun db => db.comment == none) &&
      ((gated oneHarness samplePlan).run s (attemptAgain 14)).any fun t => t.base.clients[1]? ==
        some ⟨.attempt rootNode none 101 (.stopped .begin .inconsistentMetadata), false, true⟩) = true := by
    decide +kernel
  have hcreation : ((gated oneHarness samplePlan).run ⟨start, []⟩ interruptCreation).any (fun s =>
      s.base.server.locks == Table.empty &&
      (s.base.server.find (samplePlan.request rootNode).name.value).isNone &&
      ((gated oneHarness samplePlan).run s (attemptAgain 15)).any fun t => t.base.clients[1]? ==
        some ⟨.attempt rootNode none 101 (.stopped .begin .connectionBudgetClosed), false, true⟩) = true := by
    decide +kernel
  constructor
  · obtain ⟨s, hs, hall⟩ := (Option.any_eq_true _ _).mp hcopied
    obtain ⟨hboth, hagain⟩ := Bool.and_eq_true_iff.mp hall
    obtain ⟨hlocks, huntagged⟩ := Bool.and_eq_true_iff.mp hboth
    obtain ⟨db, hdb, hcomment⟩ := (Option.any_eq_true _ _).mp huntagged
    obtain ⟨t, ht, hstopped⟩ := (Option.any_eq_true _ _).mp hagain
    exact ⟨s, t, Machine.reachable_of_run (m := gated oneHarness samplePlan) _ ⟨start_initial, rfl⟩ hs,
      beq_iff_eq.mp hlocks, ⟨db, hdb, beq_iff_eq.mp hcomment⟩, ht, beq_iff_eq.mp hstopped⟩
  · obtain ⟨s, hs, hall⟩ := (Option.any_eq_true _ _).mp hcreation
    obtain ⟨hboth, hagain⟩ := Bool.and_eq_true_iff.mp hall
    obtain ⟨hlocks, hnone⟩ := Bool.and_eq_true_iff.mp hboth
    obtain ⟨t, ht, hstopped⟩ := (Option.any_eq_true _ _).mp hagain
    exact ⟨s, t, Machine.reachable_of_run (m := gated oneHarness samplePlan) _ ⟨start_initial, rfl⟩ hs,
      beq_iff_eq.mp hlocks, Option.isNone_iff_eq_none.mp hnone, ht, beq_iff_eq.mp hstopped⟩

end PostgresTestHarness.Template
