import PostgresTestHarness.Library.Machine
import PostgresTestHarness.Template.Attempt

/-! The locks of an attempt, whatever it reads.

Attempts run against a catalog that may be another one at every statement, so that an
attempt can see any sequence of answers and failures, and go round its loop as often as it
likes. The locks that its session has follow from its phase alone (`Attempt.discipline`). -/
namespace PostgresTestHarness.Template.LockBalance
open SessionLock Postgres

variable {χ : Type}

abbrev State (χ : Type) := System χ Attempt

inductive Action (χ : Type) where
  | begin (r : Request) (now : UInt64)
  | advance (i : Nat) (o : Outcome)
  | tick (i : Nat) (now : UInt64)
  | initialized (i : Nat)
  | initializerFailed (i : Nat)
  | lose (i : Nat)
  | replace (databases : AList fun _ : Text => Database χ)

/-- An attempt that runs its initializer goes on. -/
def leaveInitializer (s : State χ) (i : Nat) (phase : Phase) : Option (State χ) :=
  s.clients[i]?.bind fun c =>
    match c.program.phase with
    | .initializing _ => some { s with clients := s.clients.set i (c.goto (c.program.goto phase)) }
    | _ => none

/-- The clock of an attempt that is not waiting. -/
def tick (s : State χ) (i : Nat) (now : UInt64) : Option (State χ) :=
  s.clients[i]?.bind fun c =>
    if c.waiting then none else some { s with clients := s.clients.set i (c.goto { c.program with now }) }

def step (s : State χ) : Action χ → Option (State χ)
  | .begin r now => some (s.connect ⟨r, now, .lockShared .first⟩)
  | .advance i o => s.advance Attempt.code i o
  | .tick i now => tick s i now
  | .initialized i => leaveInitializer s i .disableConnections
  | .initializerFailed i => leaveInitializer s i .abortDrop
  | .lose i => s.lose i
  | .replace databases => some { s with server := { s.server with databases } }

structure Initial (s : State χ) : Prop where
  clients : s.clients = []
  locks : s.server.locks = Table.empty

def machine (χ : Type) : Machine (State χ) (Action χ) where
  initial := Initial
  step := step

variable {s t : State χ} {i : Nat} {c : Client Attempt}

theorem leaveInitializer_eq_some {phase : Phase} (h : leaveInitializer s i phase = some t) :
    ∃ c done, s.clients[i]? = some c ∧ c.program.phase = .initializing done ∧ t.server = s.server ∧
      t.clients = s.clients.set i (c.goto (c.program.goto phase)) := by
  obtain ⟨c, hc, h⟩ := Option.bind_eq_some_iff.mp h
  split at h
  · rename_i done hphase
    cases h
    exact ⟨c, done, hc, hphase, rfl, rfl⟩
  · cases h

abbrev Tidy (s : State χ) : Prop := Kept Attempt.code Attempt.holds s

theorem tidy_leave {phase : Phase} (hs : Tidy s) (h : leaveInitializer s i phase = some t)
    (hphase : ∀ (r : Request) (done : Nat), holds r phase = holds r (.initializing done)) : Tidy t := by
  obtain ⟨c, done, hc, hinit, hserver, hclients⟩ := leaveInitializer_eq_some h
  have hcode : Attempt.code c.program = none := by rw [Attempt.code, hinit]; rfl
  have hnone : c.requests Attempt.code i = [] := by
    rw [Client.requests, hcode]
    cases c.waiting <;> rfl
  refine hs.goto hc hclients (by rw [hserver]) rfl (hnone.trans (requests_goto _).symm) (fun _ => rfl) fun l hl => ?_
  show Template.holds c.program.request c.program.phase = some l
  rw [hinit, ← hphase]
  exact hl

theorem tidy_step {a : Action χ} (hs : Tidy s) (h : step s a = some t) : Tidy t := by
  cases a with
  | begin r now =>
    cases h
    exact hs.connect _ fun l hl => (Option.some.inj hl).symm
  | advance i o => exact hs.advance Attempt.discipline h
  | tick i now =>
    obtain ⟨c, hc, h⟩ := Option.bind_eq_some_iff.mp h
    split at h
    · cases h
    · rename_i hwaiting
      cases h
      exact hs.goto hc rfl rfl rfl
        ((requests_of_not_waiting (Bool.not_eq_true _ ▸ hwaiting)).trans (requests_goto _).symm) (fun _ => rfl)
        fun l hl => hl
  | initialized i => exact tidy_leave hs h fun _ _ => rfl
  | initializerFailed i => exact tidy_leave hs h fun _ _ => rfl
  | lose i => exact hs.lose h
  | replace databases =>
    cases h
    exact ⟨hs.compatible, hs.unknown, hs.lost, hs.requested, hs.held⟩

theorem tidy (hs : (machine χ).Reachable s) : Tidy s :=
  Machine.Invariant.holds (m := machine χ) ⟨fun _ h => .initial h.locks h.clients, fun _ _ _ _ => tidy_step⟩ hs

/-- A turn of an attempt, as a step of its session. -/
theorem turn_of_step {o : Outcome} (hc : s.clients[i]? = some c) (h : step s (.advance i o) = some t) :
    ∃ d, t.clients[i]? = some d ∧ d.program = c.program.goto d.program.phase ∧
      d.connected = (c.connected && c.program.phase.returned.isNone) ∧
      Turn c.program.request c.program.now i c.connected s.server c.program.phase t.server d.program.phase := by
  obtain ⟨c', d, next, hc', hcode, hadvanced, hclients⟩ := System.advance_eq_some h
  cases hc.symm.trans hc'
  obtain ⟨after, hprogram, hsession, hturn⟩ := Attempt.turn_of_advanced hcode hadvanced
  have hphase : d.program.phase = after := by rw [hprogram]; rfl
  refine ⟨d, ?_, ?_, hsession, ?_⟩
  · rw [hclients, List.getElem?_set_self (List.getElem?_eq_some_iff.mp hc).1]
  · rw [hphase, hprogram]
  · rw [hphase]
    exact hturn

/-! ### After an error -/

/-- It has no further turn but the end of its session. -/
theorem over_step {a : Action χ} {error : Option (Part × Failure)} (hc : s.clients[i]? = some c)
    (hover : Over error c.program.phase) (h : step s a = some t) :
    ∃ d, t.clients[i]? = some d ∧ Over error d.program.phase := by
  have hlt := (List.getElem?_eq_some_iff.mp hc).1
  -- a step of session `j` to a client that is over if it was
  have hset : ∀ {j : Nat} {e d : Client Attempt}, s.clients[j]? = some e → t.clients = s.clients.set j d →
      (j = i → Over error d.program.phase) → ∃ d, t.clients[i]? = some d ∧ Over error d.program.phase := by
    intro j e d he hclients hd
    by_cases hji : j = i
    · refine ⟨d, ?_, hd hji⟩
      rw [hclients, hji, List.getElem?_set_self hlt]
    · refine ⟨c, ?_, hover⟩
      rw [hclients, List.getElem?_set_ne hji]
      exact hc
  have hleave : ∀ {j phase}, leaveInitializer s j phase = some t →
      ∃ d, t.clients[i]? = some d ∧ Over error d.program.phase := by
    intro j phase h
    obtain ⟨e, done, he, hinit, _, hclients⟩ := leaveInitializer_eq_some h
    refine hset he hclients fun hji => ?_
    subst hji
    cases hc.symm.trans he
    rw [hinit] at hover
    exact (hover.not_working rfl nofun).elim
  cases a with
  | begin r now =>
    cases h
    exact ⟨c, (List.getElem?_append_left hlt).trans hc, hover⟩
  | advance j o =>
    obtain ⟨e, d, next, he, hcode, hadvanced, hclients⟩ := System.advance_eq_some h
    obtain ⟨after, hprogram, _, hturn⟩ := Attempt.turn_of_advanced hcode hadvanced
    refine hset he hclients fun hji => ?_
    subst hji
    cases hc.symm.trans he
    rw [hprogram]
    exact hover.turn hturn
  | tick j now =>
    obtain ⟨e, he, h⟩ := Option.bind_eq_some_iff.mp h
    split at h
    · cases h
    · cases h
      refine hset he rfl fun hji => ?_
      subst hji
      cases hc.symm.trans he
      exact hover
  | initialized j => exact hleave h
  | initializerFailed j => exact hleave h
  | lose j =>
    obtain ⟨e, he, _, hclients⟩ := System.lose_eq_some h
    refine hset he hclients fun hji => ?_
    subst hji
    cases hc.symm.trans he
    exact hover
  | replace databases =>
    cases h
    exact ⟨c, hc, hover⟩

theorem over_run {actions : List (Action χ)} {error : Option (Part × Failure)} (hc : s.clients[i]? = some c)
    (hover : Over error c.program.phase) (h : (machine χ).run s actions = some t) :
    ∃ d, t.clients[i]? = some d ∧ Over error d.program.phase := by
  induction actions generalizing s c with
  | nil =>
    cases h
    exact ⟨c, hc, hover⟩
  | cons a rest ih =>
    rw [Machine.run_cons] at h
    obtain ⟨u, hstep, hrest⟩ := Option.bind_eq_some_iff.mp h
    obtain ⟨d, hd, hover'⟩ := over_step hc hover hstep
    exact ih hd hover' hrest

/-- A discarded session has ended. -/
def Ended (s : State χ) : Prop :=
  ∀ (i : Nat) (c : Client Attempt) error, s.clients[i]? = some c → c.program.phase = .discarded error →
    c.connected = false

theorem ended_step {a : Action χ} (hs : Ended s) (h : step s a = some t) : Ended t := by
  intro i d error hd hphase
  have hset : ∀ {j : Nat} {e d' : Client Attempt}, t.clients = s.clients.set j d' → s.clients[j]? = some e →
      (d'.program.phase = .discarded error → d'.connected = false) → d.connected = false := by
    intro j e d' hclients he hdone
    rw [hclients] at hd
    rcases Ledger.getElem?_set_cases hd with ⟨_, rfl⟩ | ⟨_, hd⟩
    · exact hdone hphase
    · exact hs i d error hd hphase
  have hleave : ∀ {j phase}, leaveInitializer s j phase = some t → phase ≠ .discarded error → d.connected = false := by
    intro j phase h hne
    obtain ⟨e, done, he, _, _, hclients⟩ := leaveInitializer_eq_some h
    exact hset hclients he fun hdone => absurd hdone hne
  cases a with
  | begin r now =>
    cases h
    rcases Ledger.getElem?_concat_cases hd with ⟨_, rfl⟩ | hd
    · cases hphase
    · exact hs i d error hd hphase
  | advance j o =>
    obtain ⟨e, d', next, he, hcode, hadvanced, hclients⟩ := System.advance_eq_some h
    obtain ⟨after, hprogram, hsession, hturn⟩ := Attempt.turn_of_advanced hcode hadvanced
    refine hset hclients he fun hdone => ?_
    rw [hprogram] at hdone
    rw [hsession, hturn.returned_of_discarded hdone, Option.isNone_some, Bool.and_false]
  | tick j now =>
    obtain ⟨e, he, h⟩ := Option.bind_eq_some_iff.mp h
    split at h
    · cases h
    · cases h
      exact hset rfl he (hs j e error he)
  | initialized j => exact hleave h nofun
  | initializerFailed j => exact hleave h nofun
  | lose j =>
    obtain ⟨e, he, _, hclients⟩ := System.lose_eq_some h
    exact hset hclients he fun _ => rfl
  | replace databases =>
    cases h
    exact hs i d error hd hphase

theorem ended (hs : (machine χ).Reachable s) : Ended s := by
  refine Machine.Invariant.holds (m := machine χ) ⟨fun s h i c error hc => ?_, fun _ _ _ _ => ended_step⟩ hs
  rw [(show Initial s from h).clients] at hc
  cases hc

/-! ### Balance -/

/-- Both locks of a template, exclusively. -/
def both (i : Nat) (r : Request) : List (Lock Nat Int64) :=
  [⟨i, r.lockKey, .exclusive⟩, ⟨i, r.coordinationKey, .exclusive⟩]

/-- What an attempt's session holds where its functions return, and what becomes of it. -/
structure Balanced (s : State χ) (i : Nat) (c : Client Attempt) : Prop where
  /-- A template that is ready, from `begin_template` or `finish`. -/
  retained : c.connected = true → c.program.phase = .retained →
    s.server.locks.heldBy i = [⟨i, c.program.request.lockKey, .shared⟩]
  initializing : ∀ done, c.connected = true → c.program.phase = .initializing done →
    s.server.locks.heldBy i = both i c.program.request
  /-- The loop begins, or starts over. -/
  restarted : c.connected = true → c.program.phase = .lockShared .first → s.server.locks.heldBy i = []
  aborted : c.connected = true → c.program.phase = .aborted → s.server.locks.heldBy i = []
  /-- After an error, or an abort, the session can end at once, and nothing else is done with it. -/
  returned : ∀ error, c.program.phase.returned = some error →
    (∃ t, step s (.advance i .ok) = some t) ∧
    (∀ o t, step s (.advance i o) = some t → ∃ d, t.clients[i]? = some d ∧ d.program.phase = .discarded error) ∧
    ∀ actions t, (machine χ).run s actions = some t → ∃ d, t.clients[i]? = some d ∧ Over error d.program.phase
  /-- It has ended, with its locks and its request for one. -/
  discarded : ∀ error, c.program.phase = .discarded error → c.connected = false ∧ s.server.locks.heldBy i = [] ∧
    s.server.locks.requestedBy i = [] ∧ ∀ o, step s (.advance i o) = none
  /-- A drop is under both locks, and of the attempt's own database. -/
  drops : ∀ o t, step s (.advance i o) = some t → ∀ entry, t.server.drops = entry :: s.server.drops →
    entry.session = i ∧ entry.name = c.program.request.name.value ∧ s.server.locks.heldBy i = both i c.program.request ∧
      ((∃ record, c.program.phase = .dropExisting record) ∨ c.program.phase = .compensate ∨
        c.program.phase = .abortDrop)
  /-- Of one that was just found under them with the tag of an interrupted attempt. -/
  leftover : ∀ o t d record, step s (.advance i o) = some t → t.clients[i]? = some d →
    d.program.phase = .dropExisting record → s.server.locks.heldBy i = both i c.program.request ∧
      (s.server.find c.program.request.name.value).map (Server.record c.program.request.name.value) = some record ∧
      ∃ created, record.comment.bind ResourceMetadata.parse = some (c.program.request.metadata .initializing created)
  /-- Or of one that the attempt has just created and could not tag. -/
  compensation : ∀ o t d, step s (.advance i o) = some t → t.clients[i]? = some d →
    (d.program.phase = .compensate → c.program.phase = .tag) ∧
      (d.program.phase = .tag →
        s.server.createDatabase c.program.request.name.value c.program.request.source = some t.server)

/-- An attempt's session has exactly the locks that where it is calls for, whatever it has read and
however often it has gone round its loop; and an error ends the session. -/
theorem locks_balanced (hs : (machine χ).Reachable s) (hc : s.clients[i]? = some c) : Balanced s i c := by
  have hheld : ∀ {phase : Phase} (l : List (Int64 × Mode)), c.connected = true → c.program.phase = phase →
      Template.holds c.program.request phase = some l → s.server.locks.heldBy i = locksOf i l :=
    fun l hconnected hphase hl => (tidy hs).held i c l hc hconnected (by subst hphase; exact hl)
  refine ⟨fun hconnected hphase => hheld _ hconnected hphase rfl,
    fun done hconnected hphase => hheld _ hconnected hphase rfl,
    fun hconnected hphase => hheld _ hconnected hphase rfl, fun hconnected hphase => hheld _ hconnected hphase rfl,
    fun error hreturned => ⟨?_, fun o t h => ?_, fun actions t h => over_run hc (.returned hreturned) h⟩,
    fun error hphase => ?_, fun o t h entry hdrops => ?_, fun o t d record h hd hrecord => ?_, fun o t d h hd => ?_⟩
  · refine ⟨⟨{ s.server with locks := s.server.locks.endSession i },
      s.clients.set i (.closed (c.program.goto (.discarded error)))⟩, ?_⟩
    show s.advance Attempt.code i .ok = _
    rw [System.advance, hc, Option.bind_some, Attempt.code, code_of_returned hreturned]
    rfl
  · obtain ⟨d, hd, _, _, hturn⟩ := turn_of_step hc h
    exact ⟨d, hd, hturn.discarded_of_returned hreturned⟩
  · have hconnected := ended hs i c error hc hphase
    have hlost := (tidy hs).lost i c hc hconnected
    refine ⟨hconnected, hlost.2, ?_, fun o => ?_⟩
    · rw [(tidy hs).requested i c hc, requests_of_not_waiting hlost.1]
    · show s.advance Attempt.code i o = _
      rw [System.advance, hc, Option.bind_some, Attempt.code, hphase]
      rfl
  · obtain ⟨d, _, _, _, hturn⟩ := turn_of_step hc h
    rcases hturn.drops_cases with hsame | ⟨hconnected, ⟨removed, hdrops'⟩, hphase⟩
    · exact absurd (hsame.symm.trans hdrops) List.ne_cons_self
    · rw [(List.cons.inj (hdrops.symm.trans hdrops')).1]
      refine ⟨rfl, rfl, ?_, hphase⟩
      rcases hphase with ⟨record, hphase⟩ | hphase | hphase
      · exact hheld _ hconnected hphase rfl
      · exact hheld _ hconnected hphase rfl
      · exact hheld _ hconnected hphase rfl
  · obtain ⟨d', hd', _, _, hturn⟩ := turn_of_step hc h
    cases hd.symm.trans hd'
    obtain ⟨hphase, hconnected, hfound, hrecoverable⟩ := hturn.found_leftover hrecord
    exact ⟨hheld _ hconnected hphase rfl, hfound, recoverable_iff.mp hrecoverable⟩
  · obtain ⟨d', hd', _, _, hturn⟩ := turn_of_step hc h
    cases hd.symm.trans hd'
    exact ⟨hturn.not_tagged.1, fun htag => (hturn.not_tagged.2 htag).2⟩

def sampleFingerprint (digit : UInt8) : TemplateFingerprint := ⟨⟨List.replicate 32 digit, List.length_replicate⟩⟩

def sampleProject : ProjectName := ⟨"shop".toList, rejection_shop⟩

def requestWith (digit : UInt8) (lockKey coordinationKey : Int64) : Request where
  project := sampleProject
  name := .template sampleProject (sampleFingerprint digit)
  identity := ⟨sampleFingerprint digit, none⟩
  lockKey
  coordinationKey
  source := "template0".toList

def sampleRequest : Request := requestWith 0 1 2

/-- A catalog with `template0` alone. -/
def fresh : State Unit where
  server :=
    { databases := (∅ : AList fun _ : Text => Database Unit).insert "template0".toList ⟨0, none, false, [], ()⟩
      locks := Table.empty
      nextOid := 1
      drops := [] }
  clients := []

/-- An attempt that finishes its template, one whose initializer fails, and one that cannot lock its own. -/
def threeAttempts : List (Action Unit) :=
  .begin sampleRequest 0 :: List.replicate 17 (.advance 0 .ok) ++ .initialized 0 :: List.replicate 9 (.advance 0 .ok) ++
    .begin (requestWith 1 3 4) 0 :: List.replicate 17 (.advance 1 .ok) ++
    .initializerFailed 1 :: List.replicate 3 (.advance 1 .ok) ++
    [.begin (requestWith 2 5 6) 0, .advance 2 (.failed false)]

/-- They come to a template that is ready, to an abort, and to an error; and the sessions of the last two end. -/
theorem locks_balanced_three : ∃ s t : State Unit, (machine Unit).Reachable s ∧
    s.clients = [⟨⟨sampleRequest, 0, .retained⟩, false, true⟩, ⟨⟨requestWith 1 3 4, 0, .aborted⟩, false, true⟩,
      ⟨⟨requestWith 2 5 6, 0, .stopped .begin .statement⟩, false, true⟩] ∧
    s.server.locks.heldBy 0 = [⟨0, 1, .shared⟩] ∧ s.server.locks.heldBy 1 = [] ∧
    (machine Unit).run s [.advance 1 .ok, .advance 2 .ok] = some t ∧
    t.clients[1]? = some ⟨⟨requestWith 1 3 4, 0, .discarded none⟩, false, false⟩ ∧ t.server.locks.heldBy 1 = [] ∧
    t.clients[2]? = some ⟨⟨requestWith 2 5 6, 0, .discarded (some (.begin, .statement))⟩, false, false⟩ ∧
    t.server.locks.heldBy 2 = [] := by
  have hrun : ((machine Unit).run fresh threeAttempts).any (fun s => s.clients ==
      [⟨⟨sampleRequest, 0, .retained⟩, false, true⟩, ⟨⟨requestWith 1 3 4, 0, .aborted⟩, false, true⟩,
        ⟨⟨requestWith 2 5 6, 0, .stopped .begin .statement⟩, false, true⟩] &&
      ((machine Unit).run s [.advance 1 .ok, .advance 2 .ok]).any fun t =>
        t.clients[1]? == some ⟨⟨requestWith 1 3 4, 0, .discarded none⟩, false, false⟩ &&
          t.clients[2]? ==
            some ⟨⟨requestWith 2 5 6, 0, .discarded (some (.begin, .statement))⟩, false, false⟩) = true := by
    decide +kernel
  obtain ⟨s, hs, hboth⟩ := (Option.any_eq_true _ _).mp hrun
  obtain ⟨hclients, hclose⟩ := Bool.and_eq_true_iff.mp hboth
  obtain ⟨t, ht, hdiscarded⟩ := (Option.any_eq_true _ _).mp hclose
  obtain ⟨hfirst, hsecond⟩ := Bool.and_eq_true_iff.mp hdiscarded
  rw [beq_iff_eq] at hclients hfirst hsecond
  have hreachable := Machine.reachable_of_run (m := machine Unit) _ ⟨rfl, rfl⟩ hs
  have hfinished : s.clients[0]? = some ⟨⟨sampleRequest, 0, .retained⟩, false, true⟩ := by rw [hclients]; rfl
  have haborted : s.clients[1]? = some ⟨⟨requestWith 1 3 4, 0, .aborted⟩, false, true⟩ := by rw [hclients]; rfl
  exact ⟨s, t, hreachable, hclients, (locks_balanced hreachable hfinished).retained rfl rfl,
    (locks_balanced hreachable haborted).aborted rfl rfl, ht, hfirst,
    ((locks_balanced (hreachable.run ht) hfirst).discarded _ rfl).2.1, hsecond,
    ((locks_balanced (hreachable.run ht) hsecond).discarded _ rfl).2.1⟩

end PostgresTestHarness.Template.LockBalance
