import PostgresTestHarness.Template.Gate

/-! An attempt that nobody disturbs.

When no other session has or wants a template's two locks, an attempt at it comes by turns that
all succeed to what it returns: a template that is ready, a fresh copy of its source, or an error
for a database that it does not know or for a closed gate (`Returns`). Which one it is depends on
the database that it finds and on its harness's gate. -/
namespace PostgresTestHarness.Template
open SessionLock Postgres

variable {χ : Type} {plan : Plan χ} {harness : Nat → Nat} {s t : State χ} {i : Nat} {n : Node}

/-- A database without a record. -/
def Untagged (found : Option (Database χ)) : Prop := ∃ db, found = some db ∧ db.comment = none

/-- No database, or one of an interrupted attempt. -/
def Recoverable (plan : Plan χ) (n : Node) (found : Option (Database χ)) : Prop :=
  ∀ db, found = some db → Tagged plan n .initializing db

/-- A template's database is not there, has a record of the template, or has none. -/
theorem found_cases (hs : Recorded plan s) (hn : n ∈ plan.nodes) :
    Recoverable plan n (s.server.find (plan.request n).name.value) ∨
    (∃ db, s.server.find (plan.request n).name.value = some db ∧ Tagged plan n .ready db) ∨
    Untagged (s.server.find (plan.request n).name.value) := by
  cases hdb : s.server.find (plan.request n).name.value with
  | none => exact Or.inl nofun
  | some db =>
    cases hcomment : db.comment with
    | none => exact Or.inr (Or.inr ⟨db, rfl, hcomment⟩)
    | some text =>
      obtain ⟨state, created, rfl⟩ := hs.own n hn db hdb text hcomment
      cases state with
      | initializing =>
        refine Or.inl fun found hfound => ?_
        cases hfound
        exact ⟨created, hcomment⟩
      | ready => exact Or.inr (Or.inl ⟨db, rfl, created, hcomment⟩)

/-- What an attempt at a template comes to that nobody disturbs, by the database it has found and
the gate of its harness. A copy gets the next number of the server. -/
inductive Returns (plan : Plan χ) (n : Node) (isOpen : Bool) (found : Option (Database χ)) (oid : Nat) :
    Phase → Option (Database χ) → Prop where
  | ready {db} : found = some db → Tagged plan n .ready db → Returns plan n isOpen found oid .retained (some db)
  /-- A database that it does not know is left as it is. -/
  | unknown : Untagged found → Returns plan n isOpen found oid (.stopped .begin .inconsistentMetadata) found
  | rejected : Recoverable plan n found → isOpen = false →
      Returns plan n isOpen found oid (.stopped .begin .connectionBudgetClosed) none
  | fresh {db} : Recoverable plan n found → isOpen = true → Tagged plan n .initializing db →
      db.content = plan.sourceContent n.lineage → db.oid = oid →
      Returns plan n isOpen found oid (.initializing 0) (some db)

/-- Nobody else has a template's two locks, or asks for them. -/
def Undisturbed (r : Request) (i : Nat) (locks : Table Nat Int64) : Prop :=
  ∀ l, l ∈ locks.held ∨ l ∈ locks.queue → l.session ≠ i → l.key ≠ r.lockKey ∧ l.key ≠ r.coordinationKey

theorem Undisturbed.of_subset {r : Request} {locks locks' : Table Nat Int64} (h : Undisturbed r i locks)
    (hheld : ∀ l ∈ locks'.held, l.session ≠ i → l ∈ locks.held)
    (hqueue : ∀ l ∈ locks'.queue, l.session ≠ i → l ∈ locks.queue) : Undisturbed r i locks' := by
  intro l hl hsession
  refine h l ?_ hsession
  rcases hl with hl | hl
  · exact Or.inl (hheld l hl hsession)
  · exact Or.inr (hqueue l hl hsession)

/-- What an attempt has made of the database that it found. -/
def Way (plan : Plan χ) (n : Node) (found : Option (Database χ)) (oid : Nat) (phase : Phase) (s : Server χ) : Prop :=
  match phase with
  | .dropExisting _ | .ensureOpen | .create => Recoverable plan n found ∧ s.nextOid = oid
  | .stopped .begin .connectionBudgetClosed => Recoverable plan n found ∧ s.find (plan.request n).name.value = none
  | .tag | .initializing _ =>
    Recoverable plan n found ∧ ∃ db, s.find (plan.request n).name.value = some db ∧ db.oid = oid
  | .stopped .begin .inconsistentMetadata => Untagged found ∧ s.find (plan.request n).name.value = found
  | _ => s.find (plan.request n).name.value = found ∧ s.nextOid = oid

/-- An attempt on its way, with its source, that nobody disturbs. -/
structure Solo (plan : Plan χ) (i : Nat) (n : Node) (handle : Option Nat) (now : UInt64) (found : Option (Database χ))
    (oid : Nat) (s : State χ) (phase : Phase) : Prop where
  reachable : (machine plan).Reachable s
  client : s.clients[i]? = some ⟨.attempt n handle now phase, false, true⟩
  source : s.hasSource n handle = true
  alone : Undisturbed (plan.request n) i s.server.locks
  way : Way plan n found oid phase s.server

section Solo
variable {handle : Option Nat} {now : UInt64} {found : Option (Database χ)} {oid : Nat} {phase : Phase}
  {gates : List Nat}

theorem Solo.attempts (h : Solo plan i n handle now found oid s phase) :
    s.Attempts i ⟨.attempt n handle now phase, false, true⟩ n handle now phase := ⟨h.client, rfl⟩

theorem Solo.facts (h : Solo plan i n handle now found oid s phase) :
    Facts plan n phase (s.server.find (plan.request n).name.value) :=
  (sound h.reachable).facts _ _ _ _ _ _ h.attempts rfl

theorem Solo.member (h : Solo plan i n handle now found oid s phase) : n ∈ plan.nodes :=
  (recorded h.reachable).member _ _ _ _ _ _ h.attempts

theorem Solo.phase? (h : Solo plan i n handle now found oid s phase) : s.phase? i = some phase := by
  rw [State.phase?, h.client]

/-- A handle is another session's. -/
theorem hasSource_set (hsource : s.hasSource n handle = true) {c d : Client Program}
    (hc : s.Attempts i c n handle now phase) (hphase : phase ≠ .retained) {server : Server χ} :
    State.hasSource ⟨server, s.clients.set i d⟩ n handle = true := by
  rw [State.hasSource] at hsource ⊢
  split at hsource
  · exact hsource
  · obtain ⟨j, hj, hretains⟩ := (Option.any_eq_true _ _).mp hsource
    refine (Option.any_eq_true _ _).mpr ⟨j, hj, ?_⟩
    rw [State.retains] at hretains ⊢
    have hij : i ≠ j := by
      intro heq
      obtain rfl := heq
      obtain ⟨program, waiting, connected⟩ := c
      obtain ⟨hi, rfl⟩ := hc
      rw [hi] at hretains
      split at hretains
      · rename_i heq
        cases heq
        exact hphase rfl
      · cases hretains
    rw [List.getElem?_set_ne hij]
    exact hretains

/-- With its source an attempt may take any turn. -/
theorem mayAdvance_of_source {c : Client Program} (hc : s.Attempts i c n handle now phase)
    (hsource : s.hasSource n handle = true) {o : Outcome} : s.mayAdvance i o = true := by
  obtain ⟨program, waiting, connected⟩ := c
  obtain ⟨hi, rfl⟩ := hc
  rw [State.mayAdvance, hi]
  split
  · rename_i heq
    cases heq
    rw [hsource, Bool.or_true]
  · rfl

/-- What steps of its own keep. -/
theorem Solo.goto (h : Solo plan i n handle now found oid s phase) (hphase : phase ≠ .retained) {server : Server χ}
    {next : Phase}
    (hreach : (machine plan).Reachable ⟨server, s.clients.set i ⟨.attempt n handle now next, false, true⟩⟩)
    (hheld : ∀ l ∈ server.locks.held, l.session ≠ i → l ∈ s.server.locks.held)
    (hqueue : ∀ l ∈ server.locks.queue, l.session ≠ i → l ∈ s.server.locks.queue)
    (hway : Way plan n found oid next server) :
    Solo plan i n handle now found oid ⟨server, s.clients.set i ⟨.attempt n handle now next, false, true⟩⟩ next where
  reachable := hreach
  client := List.getElem?_set_self (List.getElem?_eq_some_iff.mp h.client).1
  source := hasSource_set h.source h.attempts hphase
  alone := h.alone.of_subset hheld hqueue
  way := hway

/-- A turn of its own, on the session alone. -/
theorem Solo.steps (h : Solo plan i n handle now found oid s phase) {next : Code Phase} {o : Outcome} {server : Server χ}
    {after : Phase} (hcode : code (plan.request n) now phase = some next)
    (hadvance : Postgres.advance i s.server ⟨Program.attempt n handle now phase, false, true⟩ o
      (next.map (Program.attempt n handle now)) = some (server, ⟨.attempt n handle now after, false, true⟩)) :
    step plan s (.advance i o) = some ⟨server, s.clients.set i ⟨.attempt n handle now after, false, true⟩⟩ := by
  show (if _ then _ else _) = _
  rw [if_pos (mayAdvance_of_source h.attempts h.source), System.advance, h.client]
  show ((code (plan.request n) now phase).map _).bind _ = _
  rw [hcode]
  show (Postgres.advance i s.server _ o _).map _ = _
  rw [hadvance]
  rfl

/-! ### Turns that succeed -/

/-- Where an attempt comes to that nobody disturbs, by turns that succeed. -/
def Leads (harness : Nat → Nat) (plan : Plan χ) (i : Nat) (n : Node) (handle : Option Nat) (now : UInt64)
    (found : Option (Database χ)) (oid : Nat) (gates : List Nat) (s : State χ) : Prop :=
  ∃ turns t phase, (gated harness plan).run ⟨s, gates⟩ (List.replicate turns (.act (.advance i .ok))) = some ⟨t, gates⟩ ∧
    t.clients[i]? = some ⟨.attempt n handle now phase, false, true⟩ ∧
    Returns plan n (!gates.contains (harness i)) found oid phase (t.server.find (plan.request n).name.value)

theorem Leads.of_step (h : Leads harness plan i n handle now found oid gates t)
    (hstep : (gated harness plan).step ⟨s, gates⟩ (.act (.advance i .ok)) = some ⟨t, gates⟩) :
    Leads harness plan i n handle now found oid gates s := by
  obtain ⟨turns, u, phase, hrun, hend⟩ := h
  refine ⟨turns + 1, u, phase, ?_, hend⟩
  rw [List.replicate_succ, Machine.run_cons, hstep]
  exact hrun

/-- Away from its gate a turn of the attempt is one behind it. -/
theorem gated_step (hphase : s.phase? i = some phase) (hgate : phase ≠ .ensureOpen) (hclose : phase ≠ .closeAdmission)
    (hstep : step plan s (.advance i .ok) = some t) :
    (gated harness plan).step ⟨s, gates⟩ (.act (.advance i .ok)) = some ⟨t, gates⟩ := by
  have hopen : s.phase? i ≠ some .ensureOpen := fun h => hgate (Option.some.inj (hphase.symm.trans h))
  have hkeep : s.phase? i ≠ some .closeAdmission := fun h => hclose (Option.some.inj (hphase.symm.trans h))
  show (step plan s (.advance i (if _ then _ else .ok))).map _ = _
  rw [if_neg hopen, hstep]
  show some (Gated.mk t (if _ then _ else gates)) = _
  rw [if_neg hkeep]

/-- A turn that goes on at once, and leaves no locks with others. -/
theorem Solo.leads_of_turn (h : Solo plan i n handle now found oid s phase) {next : Code Phase} {server : Server χ}
    {after : Phase} (hcode : code (plan.request n) now phase = some next) (hphase : phase ≠ .retained)
    (hgate : phase ≠ .ensureOpen) (hclose : phase ≠ .closeAdmission)
    (hadvance : Postgres.advance i s.server ⟨Program.attempt n handle now phase, false, true⟩ .ok
      (next.map (Program.attempt n handle now)) = some (server, ⟨.attempt n handle now after, false, true⟩))
    (hheld : server.locks.held ⊆ s.server.locks.held) (hqueue : server.locks.queue ⊆ s.server.locks.queue)
    (hway : Way plan n found oid after server)
    (hleads : ∀ t, Solo plan i n handle now found oid t after → Leads harness plan i n handle now found oid gates t) :
    Leads harness plan i n handle now found oid gates s := by
  have hstep := h.steps hcode hadvance
  have hsolo := h.goto hphase (h.reachable.next (.advance i .ok) hstep) (fun _ hl _ => hheld hl)
    (fun _ hl _ => hqueue hl) hway
  exact (hleads _ hsolo).of_step (gated_step h.phase? hgate hclose hstep)

/-- A turn of a statement. -/
theorem Solo.leads_of_run (h : Solo plan i n handle now found oid s phase) {α : Type} {stmt : Statement α}
    {ok : α → Phase} {answer : α} {server : Server χ}
    (hcode : code (plan.request n) now phase = some (.run stmt ok phase.failed))
    (hexecute : s.server.execute i stmt = some (server, answer))
    (hheld : server.locks.held ⊆ s.server.locks.held) (hqueue : server.locks.queue ⊆ s.server.locks.queue)
    (hway : Way plan n found oid (ok answer) server)
    (hleads : ∀ t, Solo plan i n handle now found oid t (ok answer) →
      Leads harness plan i n handle now found oid gates t) :
    Leads harness plan i n handle now found oid gates s := by
  have hphase : phase ≠ .retained := by
    rintro rfl
    cases hcode
  have hgate : phase ≠ .ensureOpen := by
    rintro rfl
    cases hcode
  have hclose : phase ≠ .closeAdmission := by
    rintro rfl
    cases hcode
  refine h.leads_of_turn hcode hphase hgate hclose ?_ hheld hqueue hway hleads
  show (s.server.execute i stmt).map _ = _
  rw [hexecute]
  rfl

/-- Nobody stands between it and one of its locks. -/
theorem Solo.free (h : Solo plan i n handle now found oid s phase) {key : Int64} {mode : Mode}
    (hkey : key = (plan.request n).lockKey ∨ key = (plan.request n).coordinationKey) :
    (s.server.locks.request ⟨i, key, mode⟩).grantable ⟨i, key, mode⟩ = true := by
  have hother : ∀ l, l ∈ s.server.locks.held ∨ l ∈ s.server.locks.queue → l.session ≠ i → l.key ≠ key := by
    intro l hl hsession heq
    obtain ⟨hlock, hcoordination⟩ := h.alone l hl hsession
    rcases hkey with rfl | rfl
    · exact hlock heq
    · exact hcoordination heq
  refine Table.grantable_request (fun r hr hrkey => ?_) (Table.free_iff.mpr fun l hl hlkey hsession => ?_)
  · by_cases hsession : r.session = i
    · -- it does not wait yet
      have hmem : r ∈ s.server.locks.requestedBy i := Table.mem_requestedBy.mpr ⟨hr, hsession⟩
      rw [(tidy h.reachable).requested i _ h.client, requests_of_not_waiting rfl] at hmem
      cases hmem
    · exact hother r (Or.inr hr) hsession hrkey
  · exact absurd hlkey (hother l (Or.inl hl) hsession)

/-- A lock that it asks for is granted. -/
theorem Solo.leads_of_lock (h : Solo plan i n handle now found oid s phase) {key : Int64} {mode : Mode} {ok : Phase}
    (hcode : code (plan.request n) now phase = some (.acquire mode key ok phase.failed))
    (hkey : key = (plan.request n).lockKey ∨ key = (plan.request n).coordinationKey)
    (hway : ∀ server : Server χ, SameCatalog s.server server → Way plan n found oid ok server)
    (hleads : ∀ t, Solo plan i n handle now found oid t ok → Leads harness plan i n handle now found oid gates t) :
    Leads harness plan i n handle now found oid gates s := by
  have hphase : phase ≠ .retained := by
    rintro rfl
    cases hcode
  have hgate : phase ≠ .ensureOpen := by
    rintro rfl
    cases hcode
  have hclose : phase ≠ .closeAdmission := by
    rintro rfl
    cases hcode
  let lock : Lock Nat Int64 := ⟨i, key, mode⟩
  let asking : State χ := ⟨{ s.server with locks := s.server.locks.request lock },
    s.clients.set i ⟨.attempt n handle now phase, true, true⟩⟩
  let server : Server χ := { s.server with locks := (s.server.locks.request lock).grant lock }
  have hlt := (List.getElem?_eq_some_iff.mp h.client).1
  have hasks : step plan s (.advance i .ok) = some asking := by
    show (if _ then _ else _) = _
    rw [if_pos (mayAdvance_of_source h.attempts h.source), System.advance, h.client]
    show ((code (plan.request n) now phase).map _).bind _ = _
    rw [hcode]
    rfl
  have hclient : asking.clients[i]? = some ⟨.attempt n handle now phase, true, true⟩ := List.getElem?_set_self hlt
  have hmay : asking.mayAdvance i .ok = true :=
    mayAdvance_of_source ⟨hclient, rfl⟩ (hasSource_set h.source h.attempts hphase)
  have hreach : (machine plan).Reachable asking := h.reachable.next (Action.advance i .ok) hasks
  have hgets : step plan asking (.advance i .ok) =
      some ⟨server, s.clients.set i ⟨.attempt n handle now ok, false, true⟩⟩ := by
    show (if _ then _ else _) = _
    rw [if_pos hmay, System.advance, hclient]
    show ((code (plan.request n) now phase).map _).bind _ = _
    rw [hcode]
    show (if (s.server.locks.request lock).grantable lock = true then _ else none).map _ = _
    rw [if_pos (h.free hkey)]
    show some (System.mk server ((s.clients.set i _).set i _)) = _
    rw [List.set_set]
    rfl
  have hsolo := h.goto hphase (hreach.next (Action.advance i .ok) hgets)
    (fun l hl hsession => (List.mem_cons.mp hl).resolve_left fun heq => hsession (congrArg Lock.session heq))
    (fun l hl hsession => (List.mem_append.mp (List.mem_of_mem_erase hl)).resolve_right fun heq =>
      hsession (congrArg Lock.session (List.mem_singleton.mp heq)))
    (hway server ⟨rfl, rfl, rfl⟩)
  have hwaits : asking.phase? i = some phase := by rw [State.phase?, hclient]
  exact ((hleads _ hsolo).of_step (gated_step hwaits hgate hclose hgets)).of_step
    (gated_step h.phase? hgate hclose hasks)

/-! ### From the gate on -/

/-- A source is there, and nobody is connected to it. -/
theorem Solo.original (h : Solo plan i n handle now found oid s phase) :
    ∃ original, s.server.find (plan.request n).source = some original ∧ original.clients = [] := by
  have hs := sound h.reachable
  have hsource := h.source
  have hreach := h.reachable
  obtain ⟨project, lineage⟩ := n
  cases lineage with
  | root spec =>
    obtain ⟨db, hdb, _, hclients, _⟩ := hs.template0
    exact ⟨db, hdb, hclients⟩
  | derived parent step =>
    obtain ⟨j, hj, hretains⟩ := Option.any_eq_true _ _ |>.mp hsource
    rw [State.retains] at hretains
    split at hretains
    · rename_i m handle' now' waiting hc
      cases beq_iff_eq.mp hretains
      have hm := (recorded hreach).member j _ _ _ _ _ ⟨hc, rfl⟩
      obtain ⟨db, hdb, htagged⟩ := hs.facts j _ _ _ _ _ ⟨hc, rfl⟩ rfl
      exact ⟨db, hdb, (hs.isSealed _ hm _ hdb htagged).deserted⟩
    · cases hretains

theorem leads_initializing (h : Solo plan i n handle now found oid s (.initializing 0))
    (hopen : gates.contains (harness i) = false) : Leads harness plan i n handle now found oid gates s := by
  obtain ⟨hrecoverable, made, hmade, hoid⟩ := h.way
  obtain ⟨db, hdb, hinit, hcontent⟩ := h.facts
  cases hdb.symm.trans hmade
  refine ⟨0, s, _, rfl, h.client, ?_⟩
  rw [hdb]
  exact .fresh hrecoverable (by rw [hopen]; rfl) hinit hcontent hoid

theorem leads_tag (h : Solo plan i n handle now found oid s .tag) (hopen : gates.contains (harness i) = false) :
    Leads harness plan i n handle now found oid gates s := by
  obtain ⟨hrecoverable, db, hdb, hoid⟩ := h.way
  let tagged : Database χ := { db with comment := some ((plan.request n).metadata .initializing now).encode }
  have hexecute : s.server.execute i (.comment (plan.request n).name.value
      ((plan.request n).metadata .initializing now).encode) =
        some (s.server.put (plan.request n).name.value tagged, ()) := by
    show (s.server.alter _ _).map _ = _
    rw [Server.alter, hdb]
    rfl
  exact h.leads_of_run rfl hexecute (List.Subset.refl _) (List.Subset.refl _)
    ⟨hrecoverable, tagged, (Server.find_put _ _ _).trans (if_pos rfl), hoid⟩ fun t ht => leads_initializing ht hopen

theorem leads_create (h : Solo plan i n handle now found oid s .create) (hopen : gates.contains (harness i) = false) :
    Leads harness plan i n handle now found oid gates s := by
  obtain ⟨hrecoverable, hoid⟩ := h.way
  obtain ⟨original, horiginal, hclients⟩ := h.original
  have hnone : s.server.find (plan.request n).name.value = none := h.facts
  obtain ⟨copied, hcreate, hway⟩ : ∃ u,
      s.server.createDatabase (plan.request n).name.value (plan.request n).source = some u ∧
      Way plan n found oid .tag u :=
    ⟨_, Server.createDatabase_eq_some.mpr ⟨hnone, original, horiginal, hclients, rfl⟩, hrecoverable, _,
      (Server.find_put _ _ _).trans (if_pos rfl), hoid⟩
  obtain ⟨_, _, _, _, hcopied⟩ := Server.createDatabase_eq_some.mp hcreate
  have hlocks : copied.locks = s.server.locks := by
    rw [hcopied]
    rfl
  refine h.leads_of_turn rfl nofun nofun nofun ?_ (by rw [hlocks]; exact List.Subset.refl _)
    (by rw [hlocks]; exact List.Subset.refl _) hway fun t ht => leads_tag ht hopen
  show ((s.server.createDatabase _ _).map _).map _ = _
  rw [hcreate]
  rfl

/-- The gate's answer is the attempt's next turn. -/
theorem Solo.asks (h : Solo plan i n handle now found oid s .ensureOpen) {o : Outcome} {after : Phase}
    (hanswer : (Gated.mk s gates).answer harness i = o) (ho : o = .ok ∧ after = .create ∨
      o = .refused ∧ after = .stopped .begin .connectionBudgetClosed)
    (hway : Way plan n found oid after s.server) :
    ∃ t, Solo plan i n handle now found oid t after ∧ t.server = s.server ∧
      (gated harness plan).step ⟨s, gates⟩ (.act (.advance i .ok)) = some ⟨t, gates⟩ := by
  have hadvance : Postgres.advance i s.server ⟨Program.attempt n handle now .ensureOpen, false, true⟩ o
      ((Code.ask Phase.create (.stopped .begin .connectionBudgetClosed)).map (Program.attempt n handle now)) =
        some (s.server, ⟨.attempt n handle now after, false, true⟩) := by
    rcases ho with ⟨rfl, rfl⟩ | ⟨rfl, rfl⟩ <;> rfl
  have hstep := h.steps rfl hadvance
  refine ⟨_, h.goto nofun (h.reachable.next (.advance i o) hstep) (fun _ hl _ => hl) (fun _ hl _ => hl) hway, rfl, ?_⟩
  show (step plan s (.advance i (if _ then _ else .ok))).map _ = _
  rw [if_pos h.phase?, hanswer, hstep]
  show some (Gated.mk _ (if _ then _ else gates)) = _
  rw [if_neg fun hclose => Phase.noConfusion (Option.some.inj (h.phase?.symm.trans hclose))]

/-- The gate lets it create, or ends it. -/
theorem leads_ensureOpen (h : Solo plan i n handle now found oid s .ensureOpen) :
    Leads harness plan i n handle now found oid gates s := by
  have hnone : s.server.find (plan.request n).name.value = none := h.facts
  cases hgate : gates.contains (harness i) with
  | true =>
    have hanswer : (Gated.mk s gates).answer harness i = .refused := if_pos hgate
    have hway : Way plan n found oid (.stopped .begin .connectionBudgetClosed) s.server := ⟨h.way.1, hnone⟩
    obtain ⟨t, ht, _, hstep⟩ := h.asks hanswer (Or.inr ⟨rfl, rfl⟩) hway
    have hleads : Leads harness plan i n handle now found oid gates t := by
      refine ⟨0, t, _, rfl, ht.client, ?_⟩
      rw [ht.way.2]
      exact .rejected ht.way.1 (by rw [hgate]; rfl)
    exact hleads.of_step hstep
  | false =>
    have hanswer : (Gated.mk s gates).answer harness i = .ok := if_neg (by rw [hgate]; exact Bool.false_ne_true)
    have hway : Way plan n found oid .create s.server := h.way
    obtain ⟨t, ht, _, hstep⟩ := h.asks hanswer (Or.inl ⟨rfl, rfl⟩) hway
    exact (leads_create ht hgate).of_step hstep

/-! ### Up to the gate -/

theorem leads_findExisting (h : Solo plan i n handle now found oid s .findExisting) :
    Leads harness plan i n handle now found oid gates s := by
  obtain ⟨hfound, hoid⟩ := h.way
  have hr := recorded h.reachable
  -- what it finds decides where it goes
  have hgoes : ∀ after : Phase, (plan.request n).existing ((s.server.find (plan.request n).name.value).map
        (Server.record (plan.request n).name.value)) = after → Way plan n found oid after s.server →
      (∀ t, Solo plan i n handle now found oid t after → Leads harness plan i n handle now found oid gates t) →
      Leads harness plan i n handle now found oid gates s := by
    rintro after rfl hway hleads
    exact h.leads_of_run rfl rfl (List.Subset.refl _) (List.Subset.refl _) hway hleads
  rcases found_cases hr h.member with hrecoverable | ⟨db, hdb, hready⟩ | huntagged
  · cases hdb : s.server.find (plan.request n).name.value with
    | none =>
      refine hgoes .ensureOpen (by rw [hdb]; rfl) ⟨hfound ▸ hrecoverable, hoid⟩ fun t ht => leads_ensureOpen ht
    | some db =>
      obtain ⟨created, hcomment⟩ := hrecoverable db hdb
      have hyes : (plan.request n).recoverable (Server.record (plan.request n).name.value db) = true := by
        refine recoverable_iff.mpr ⟨created, ?_⟩
        show db.comment.bind _ = _
        rw [hcomment, Option.bind_some, ResourceMetadata.parse_encode]
      refine hgoes (.dropExisting (Server.record _ db)) (by rw [hdb]; exact if_pos hyes)
        ⟨hfound ▸ hrecoverable, hoid⟩ fun t ht => ?_
      exact ht.leads_of_run rfl rfl (List.Subset.refl _) (List.Subset.refl _) ht.way fun u hu => leads_ensureOpen hu
  · exact absurd hready (h.facts db hdb)
  · obtain ⟨db, hdb, hcomment⟩ := huntagged
    have hno : ¬ (plan.request n).recoverable (Server.record (plan.request n).name.value db) = true := by
      intro hrecoverable
      obtain ⟨created, hparse⟩ := recoverable_iff.mp hrecoverable
      cases (congrArg (Option.bind · ResourceMetadata.parse) hcomment).symm.trans hparse
    have hunknown : Untagged found := hfound ▸ ⟨db, hdb, hcomment⟩
    refine hgoes (.stopped .begin .inconsistentMetadata) (by rw [hdb]; exact if_neg hno)
      ⟨hunknown, hfound⟩ fun t ht => ?_
    refine ⟨0, t, _, rfl, ht.client, ?_⟩
    rw [ht.way.2]
    exact .unknown hunknown

/-- Under the coordination lock a template that was not ready is not ready. -/
theorem leads_inspectExclusive (h : Solo plan i n handle now found oid s .inspectExclusive) :
    Leads harness plan i n handle now found oid gates s := by
  have hnot : ¬ (plan.request n).isReady ((s.server.find (plan.request n).name.value).map
      (Server.record (plan.request n).name.value)) = true := by
    rw [isReady_find ((recorded h.reachable).own n h.member)]
    intro hparts
    obtain ⟨db, hdb, htagged⟩ := hparts
    exact h.facts db hdb htagged
  refine h.leads_of_run rfl rfl (List.Subset.refl _) (List.Subset.refl _) ?_ ?_
  · rw [if_neg hnot]
    exact h.way
  · rw [if_neg hnot]
    exact fun t ht => leads_findExisting ht

/-- An inspection under the shared lock finds the template ready, or gives the lock back. -/
theorem leads_inspect {check : Check} (h : Solo plan i n handle now found oid s (.inspect check))
    (hready : ∀ t, Solo plan i n handle now found oid t check.ready →
      Leads harness plan i n handle now found oid gates t)
    (hnotReady : ∀ t, Solo plan i n handle now found oid t check.notReady →
      Leads harness plan i n handle now found oid gates t) : Leads harness plan i n handle now found oid gates s := by
  have hway : ∀ phase, phase = check.ready ∨ phase = check.notReady →
      Way plan n found oid phase = Way plan n found oid (.inspect check) := by
    rintro phase (rfl | rfl) <;> cases check <;> rfl
  refine h.leads_of_run rfl rfl (List.Subset.refl _) (List.Subset.refl _) ?_ ?_
  · split
    · rw [hway _ (Or.inl rfl)]
      exact h.way
    · exact h.way
  · split
    · exact hready
    · refine fun t ht => ht.leads_of_run rfl rfl List.erase_subset (List.Subset.refl _) ?_ hnotReady
      rw [hway _ (Or.inr rfl)]
      exact ht.way

theorem leads_retained (h : Solo plan i n handle now found oid s .retained) :
    Leads harness plan i n handle now found oid gates s := by
  obtain ⟨db, hdb, hready⟩ := h.facts
  have hfound : s.server.find (plan.request n).name.value = found := h.way.1
  refine ⟨0, s, _, rfl, h.client, ?_⟩
  rw [hdb]
  exact .ready (hfound.symm.trans hdb) hready

theorem leads_underCoordination (h : Solo plan i n handle now found oid s (.lockShared .underCoordination)) :
    Leads harness plan i n handle now found oid gates s := by
  refine h.leads_of_lock rfl (Or.inl rfl) (fun u hsame => ?_) fun t ht =>
    leads_inspect ht (fun u hu => ?_) fun u hu => ?_
  · exact ⟨(hsame.find _).trans h.way.1, hsame.nextOid.trans h.way.2⟩
  · exact hu.leads_of_run rfl rfl List.erase_subset (List.Subset.refl _) hu.way fun v hv => leads_retained hv
  · refine hu.leads_of_lock rfl (Or.inl rfl) (fun v hsame => ?_) fun v hv => leads_inspectExclusive hv
    exact ⟨(hsame.find _).trans hu.way.1, hsame.nextOid.trans hu.way.2⟩

/-- From its start an attempt that nobody disturbs comes to what it returns. -/
theorem leads_start (h : Solo plan i n handle now found oid s (.lockShared .first)) :
    Leads harness plan i n handle now found oid gates s := by
  refine h.leads_of_lock rfl (Or.inl rfl) (fun u hsame => ?_) fun _ ht => leads_inspect ht
    (fun _ hu => leads_retained hu) fun _ hu => hu.leads_of_lock rfl (Or.inr rfl) (fun v hsame => ?_) fun _ hv => leads_underCoordination hv
  · exact ⟨(hsame.find _).trans h.way.1, hsame.nextOid.trans h.way.2⟩
  · exact ⟨(hsame.find _).trans hu.way.1, hsame.nextOid.trans hu.way.2⟩

end Solo

end PostgresTestHarness.Template
