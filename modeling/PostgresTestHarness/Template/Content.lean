import PostgresTestHarness.Catalog.Lineage
import PostgresTestHarness.Template.Custody

/-! What a template holds.

A database that is tagged ready was built from its source by one initializer, from the first
change to the last, and has been closed before it was tagged (`Sealed`). Each phase of an
attempt has its facts about the database (`Facts`); they are the attempt's own as long as
its session lives, because nobody else may touch the database under its locks. -/
namespace PostgresTestHarness.Template
open SessionLock Postgres

variable {χ : Type} {plan : Plan χ} {s t : State χ} {i : Nat} {n : Node} {db : Database χ}

/-- A database with a template's record. -/
def Tagged (plan : Plan χ) (n : Node) (state : TemplateState) (db : Database χ) : Prop :=
  ∃ created, db.comment = some ((plan.request n).metadata state created).encode

/-- What a ready template is. -/
structure Sealed (plan : Plan χ) (n : Node) (db : Database χ) : Prop where
  closed : db.allowConnections = false
  deserted : db.clients = []
  built : db.content = plan.content n.lineage

theorem metadata_encode_inj {r : Request} {state other : TemplateState} {created created' : UInt64}
    (h : (r.metadata state created).encode = (r.metadata other created').encode) : state = other := by
  have := congrArg ResourceMetadata.parse h
  rw [ResourceMetadata.parse_encode, ResourceMetadata.parse_encode, Option.some.injEq] at this
  cases this
  rfl

theorem Tagged.unique {state other : TemplateState} (h : Tagged plan n state db) (h' : Tagged plan n other db) :
    state = other := by
  obtain ⟨created, hcomment⟩ := h
  obtain ⟨created', hcomment'⟩ := h'
  exact metadata_encode_inj (Option.some.inj (hcomment.symm.trans hcomment'))

/-- What an attempt reads as ready is tagged ready. -/
theorem isReady_find {u : Server χ} (hown : ∀ db, u.find (plan.request n).name.value = some db → Own plan n db.comment) :
    (plan.request n).isReady
        ((u.find (plan.request n).name.value).map (Server.record (plan.request n).name.value)) = true ↔
      ∃ db, u.find (plan.request n).name.value = some db ∧ Tagged plan n .ready db := by
  rw [isReady_iff]
  constructor
  · intro hparts
    obtain ⟨record, created, hrecord, hparse⟩ := hparts
    obtain ⟨db, hdb, rfl⟩ := Option.map_eq_some_iff.mp hrecord
    obtain ⟨text, hcomment, hparse⟩ := Option.bind_eq_some_iff.mp hparse
    obtain ⟨state, created', rfl⟩ := hown db hdb text hcomment
    rw [ResourceMetadata.parse_encode, Option.some.injEq] at hparse
    exact ⟨db, hdb, created, by rw [← hparse]; exact hcomment⟩
  · intro hparts
    obtain ⟨db, hdb, created, hcomment⟩ := hparts
    refine ⟨_, created, by rw [hdb]; rfl, ?_⟩
    show db.comment.bind _ = _
    rw [hcomment, Option.bind_some, ResourceMetadata.parse_encode]

/-- What an attempt knows of its template's database, where it is. -/
def Facts (plan : Plan χ) (n : Node) (phase : Phase) (found : Option (Database χ)) : Prop :=
  match phase with
  | .retained | .unlockCoordination _ true => ∃ db, found = some db ∧ Tagged plan n .ready db
  | .unlockShared .underCoordination | .lockExclusive | .inspectExclusive | .findExisting =>
    ∀ db, found = some db → ¬ Tagged plan n .ready db
  | .ensureOpen | .create => found = none
  | .tag => ∃ db, found = some db ∧ db.content = plan.sourceContent n.lineage
  | .initializing done => ∃ db, found = some db ∧ Tagged plan n .initializing db ∧
      db.content = build ((plan.initializer n.lineage).take done) (plan.sourceContent n.lineage)
  | .disableConnections => ∃ db, found = some db ∧ db.content = plan.content n.lineage
  | .terminateConnections | .verifyConnections =>
    ∃ db, found = some db ∧ db.content = plan.content n.lineage ∧ db.allowConnections = false
  | .tagReady => ∃ db, found = some db ∧ Sealed plan n db
  | _ => True

theorem facts_failed (phase : Phase) (found : Option (Database χ)) : Facts plan n phase.failed found := by
  cases phase <;> trivial

/-- The facts do not speak of clients, but of a database that nobody can connect to. -/
theorem facts_clients {phase : Phase} {clients : List Nat} (h : Facts plan n phase (some db))
    (hclosed : db.allowConnections = false → db.clients = [] → clients = []) :
    Facts plan n phase (some { db with clients }) := by
  have htagged : ∀ state, Tagged plan n state { db with clients } ↔ Tagged plan n state db := fun _ => Iff.rfl
  cases phase with
  | retained =>
    obtain ⟨_, heq, hready⟩ := h
    cases heq
    exact ⟨_, rfl, hready⟩
  | unlockCoordination check ready =>
    cases ready with
    | false => trivial
    | true =>
      obtain ⟨_, heq, hready⟩ := h
      cases heq
      exact ⟨_, rfl, hready⟩
  | unlockShared check =>
    cases check with
    | underCoordination =>
      intro _ heq
      cases heq
      exact h db rfl
    | _ => trivial
  | lockExclusive =>
    intro _ heq
    cases heq
    exact h db rfl
  | inspectExclusive =>
    intro _ heq
    cases heq
    exact h db rfl
  | findExisting =>
    intro _ heq
    cases heq
    exact h db rfl
  | ensureOpen => cases h
  | create => cases h
  | tag =>
    obtain ⟨_, heq, hcontent⟩ := h
    cases heq
    exact ⟨_, rfl, hcontent⟩
  | initializing done =>
    obtain ⟨_, heq, hinit, hcontent⟩ := h
    cases heq
    exact ⟨_, rfl, hinit, hcontent⟩
  | disableConnections =>
    obtain ⟨_, heq, hcontent⟩ := h
    cases heq
    exact ⟨_, rfl, hcontent⟩
  | terminateConnections =>
    obtain ⟨_, heq, hcontent, hallow⟩ := h
    cases heq
    exact ⟨_, rfl, hcontent, hallow⟩
  | verifyConnections =>
    obtain ⟨_, heq, hcontent, hallow⟩ := h
    cases heq
    exact ⟨_, rfl, hcontent, hallow⟩
  | tagReady =>
    obtain ⟨_, heq, hsealed⟩ := h
    cases heq
    exact ⟨_, rfl, hsealed.closed, hclosed hsealed.closed hsealed.deserted, hsealed.built⟩
  | _ => trivial

section Turn
variable {u v : Server χ} {now : UInt64} {connected : Bool} {phase next : Phase}

/-- An attempt's turn leads to its next facts. -/
theorem turn_facts (hown : ∀ db, u.find (plan.request n).name.value = some db → Own plan n db.comment)
    (hsource : phase = .create → next = .tag → ∀ original, u.find (plan.request n).source = some original →
      original.content = plan.sourceContent n.lineage)
    (h : Turn (plan.request n) now i connected u phase v next)
    (hfacts : Facts plan n phase (u.find (plan.request n).name.value)) :
    Facts plan n next (v.find (plan.request n).name.value) := by
  have hput : ∀ db : Database χ, (u.put (plan.request n).name.value db).find (plan.request n).name.value = some db :=
    fun db => (Server.find_put _ _ _).trans (if_pos rfl)
  have hdrop : (u.dropDatabase i (plan.request n).name.value).find (plan.request n).name.value = none :=
    (Server.find_drop _ _).trans (if_pos rfl)
  have hready := isReady_find hown
  cases h with
  | waited _ hsame => rw [hsame.find]; exact hfacts
  | failed => exact facts_failed _ _
  | lockedShared => trivial
  | inspected check =>
    split
    · rename_i hyes
      cases check <;> exact hready.mp hyes
    · rename_i hno
      cases check with
      | underCoordination => exact fun db hdb htagged => hno (hready.mpr ⟨db, hdb, htagged⟩)
      | _ => trivial
  | unlockedShared check hsame =>
    cases check with
    | underCoordination => rw [hsame.find]; exact hfacts
    | _ => trivial
  | lockedCoordination => trivial
  | lockedExclusive hsame => rw [hsame.find]; exact hfacts
  | inspectedExclusive =>
    split
    · trivial
    · exact hfacts
  | unlockedExclusive => trivial
  | found =>
    cases hfound : u.find (plan.request n).name.value with
    | none => rfl
    | some db =>
      rw [Option.map_some, Request.existing]
      split <;> trivial
  | dropped _ hnext =>
    rcases hnext with rfl | rfl
    · exact hdrop
    · trivial
  | answered hnext =>
    rcases hnext with rfl | rfl
    · exact hfacts
    · trivial
  | refused => trivial
  | created _ hcreate hnext =>
    rcases hnext with rfl | rfl
    · obtain ⟨_, original, horiginal, _, rfl⟩ := Server.createDatabase_eq_some.mp hcreate
      exact ⟨_, hput _, hsource rfl rfl original horiginal⟩
    · trivial
  | tagged _ hdb hnext =>
    rcases hnext with rfl | rfl
    · obtain ⟨before, hbefore, hcontent⟩ := hfacts
      cases hdb.symm.trans hbefore
      exact ⟨_, hput _, ⟨_, rfl⟩, hcontent⟩
    · trivial
  | compensated _ hnext => rcases hnext with rfl | rfl <;> trivial
  | closedAdmission => trivial
  | disabled _ hdb hnext =>
    rcases hnext with rfl | rfl
    · obtain ⟨before, hbefore, hcontent⟩ := hfacts
      cases hdb.symm.trans hbefore
      exact ⟨_, hput _, hcontent, rfl⟩
    · trivial
  | terminated _ hnext =>
    rcases hnext with rfl | rfl
    · obtain ⟨before, hbefore, hcontent, hallow⟩ := hfacts
      rw [Server.terminate, hbefore]
      exact ⟨_, hput _, hcontent, hallow⟩
    · trivial
  | verified =>
    obtain ⟨before, hbefore, hcontent, hallow⟩ := hfacts
    split
    · trivial
    · rename_i hnone
      rw [hbefore, Option.any_some, Bool.not_eq_true, Bool.not_eq_false', List.isEmpty_iff] at hnone
      exact ⟨before, hbefore, hallow, hnone, hcontent⟩
  | taggedReady _ _ hnext => rcases hnext with rfl | rfl <;> trivial
  | unlockedFinished => trivial
  | unlockedCoordination check ready hsame =>
    cases ready with
    | true => rw [hsame.find]; cases check <;> exact hfacts
    | false => cases check <;> trivial
  | abortDropped => trivial
  | abortUnlocked => trivial
  | abortedAll => split <;> trivial
  | discarded => trivial

/-- A turn that leaves a template tagged ready leaves it sealed. -/
theorem turn_sealed (hsealed : ∀ db, u.find (plan.request n).name.value = some db → Tagged plan n .ready db → Sealed plan n db)
    (h : Turn (plan.request n) now i connected u phase v next)
    (hfacts : Facts plan n phase (u.find (plan.request n).name.value)) :
    ∀ db, v.find (plan.request n).name.value = some db → Tagged plan n .ready db → Sealed plan n db := by
  have hput : ∀ {changed : Database χ}, (Tagged plan n .ready changed → Sealed plan n changed) →
      ∀ db, (u.put (plan.request n).name.value changed).find (plan.request n).name.value = some db →
        Tagged plan n .ready db → Sealed plan n db := by
    intro changed hchanged db hdb
    rw [Server.find_put, if_pos rfl, Option.some.injEq] at hdb
    exact hdb ▸ hchanged
  rcases h.edit with hsame | ⟨_, hedit⟩
  · exact fun db hdb => hsealed db (hsame.find _ ▸ hdb)
  cases hedit with
  | dropped =>
    intro db hdb
    rw [Server.find_drop, if_pos rfl] at hdb
    cases hdb
  | created hcreate =>
    obtain ⟨_, original, _, _, rfl⟩ := Server.createDatabase_eq_some.mp hcreate
    refine hput fun htagged => ?_
    obtain ⟨_, hcomment⟩ := htagged
    cases hcomment
  | @tagged before =>
    refine hput fun htagged => ?_
    cases htagged.unique (⟨now, rfl⟩ : Tagged plan n .initializing _)
  | @disabled before hbefore =>
    refine hput fun htagged => ?_
    have hsealed := hsealed before hbefore htagged
    exact ⟨rfl, hsealed.deserted, hsealed.built⟩
  | terminated =>
    rw [Server.terminate]
    split
    · rename_i before hbefore
      refine hput fun htagged => ?_
      have hsealed := hsealed before hbefore htagged
      exact ⟨hsealed.closed, rfl, hsealed.built⟩
    · exact hsealed
  | taggedReady hdb =>
    obtain ⟨before, hbefore, hsealed⟩ := hfacts
    cases hdb.symm.trans hbefore
    exact hput fun _ => ⟨hsealed.closed, hsealed.deserted, hsealed.built⟩

/-- Only one turn makes a template ready. -/
theorem turn_ready (h : Turn (plan.request n) now i connected u phase v next)
    (hdb : v.find (plan.request n).name.value = some db) (htagged : Tagged plan n .ready db) :
    phase = .tagReady ∨ ∃ before, u.find (plan.request n).name.value = some before ∧ Tagged plan n .ready before := by
  have hput : ∀ {changed : Database χ}, (u.put (plan.request n).name.value changed).find (plan.request n).name.value = some db →
      Tagged plan n .ready changed := by
    intro changed hdb
    rw [Server.find_put, if_pos rfl, Option.some.injEq] at hdb
    exact hdb ▸ htagged
  rcases h.edit with hsame | ⟨_, hedit⟩
  · exact Or.inr ⟨db, hsame.find _ ▸ hdb, htagged⟩
  cases hedit with
  | dropped =>
    rw [Server.find_drop, if_pos rfl] at hdb
    cases hdb
  | created hcreate =>
    obtain ⟨_, original, _, _, rfl⟩ := Server.createDatabase_eq_some.mp hcreate
    obtain ⟨_, hcomment⟩ := hput hdb
    cases hcomment
  | @tagged before => cases (hput hdb).unique (⟨now, rfl⟩ : Tagged plan n .initializing _)
  | @disabled before hbefore =>
    have hready := hput hdb
    exact Or.inr ⟨before, hbefore, hready⟩
  | terminated =>
    rw [Server.terminate] at hdb
    split at hdb
    · rename_i before hbefore
      have hready := hput hdb
      exact Or.inr ⟨before, hbefore, hready⟩
    · exact Or.inr ⟨db, hdb, htagged⟩
  | taggedReady => exact Or.inl rfl

end Turn

/-! ### Every template -/

/-- Templates that are tagged ready are sealed, and live attempts have their facts. -/
structure Sound (plan : Plan χ) (s : State χ) : Prop where
  isSealed : ∀ n ∈ plan.nodes, ∀ db, s.server.find (plan.request n).name.value = some db →
    Tagged plan n .ready db → Sealed plan n db
  facts : ∀ i c n handle now phase, s.Attempts i c n handle now phase → c.connected = true →
    Facts plan n phase (s.server.find (plan.request n).name.value)
  template0 : ∃ db, s.server.find "template0".toList = some db ∧ db.content = plan.template0 ∧ db.clients = [] ∧
    db.allowConnections = false

/-- A managed name does not start like `template0`. -/
theorem managed_ne_template0 {p : ProjectName} {kind : DatabaseKind} {suffix : Text} :
    p.databasePrefix kind ++ suffix ≠ "template0".toList := by
  intro h
  rw [ProjectName.databasePrefix, List.append_assoc, List.append_assoc] at h
  cases congrArg List.head? h

theorem name_ne_template0 (plan : Plan χ) (n : Node) : (plan.request n).name.value ≠ "template0".toList :=
  managed_ne_template0

/-- Nothing happens to `template0`. -/
theorem template0_step (hr : Recorded plan s) {actor : Option Nat} (h : Transition plan s t actor) {before : Database χ}
    (hbefore : s.server.find "template0".toList = some before) (hclients : before.clients = [])
    (hclosed : before.allowConnections = false) : t.server.find "template0".toList = some before := by
  have hput : ∀ {server : Server χ} {n : Node} {db : Database χ},
      (server.put (plan.request n).name.value db).find "template0".toList = server.find "template0".toList :=
    fun {server n db} => (Server.find_put _ _ _).trans (if_neg (name_ne_template0 plan n).symm)
  rw [← hbefore]
  cases h with
  | begun _ _ ht => rw [ht]; rfl
  | sweepBegun ht => rw [ht]; rfl
  | ticked _ hserver => rw [hserver]
  | returned _ _ _ hserver => rw [hserver]
  | lost _ hserver => rw [hserver]; rfl
  | @turned _ _ _ node _ _ _ _ _ hturn =>
    rcases hturn.writes with hsame | ⟨_, _, hothers⟩
    · exact hsame _
    · exact hothers _ (name_ne_template0 plan node).symm
  | @swept j c sw phase after hc hturn =>
    have hdrop : ∀ {record key name rest report}, phase = .dropping record key name rest report →
        (s.server.dropDatabase j name.value).find "template0".toList = s.server.find "template0".toList := by
      intro record key name rest report hphase
      subst hphase
      obtain ⟨metadata, hcandidate, _⟩ := StaleCleanup.classify_eq_candidate.mp (hr.grounded _ _ _ _ hc)
      obtain ⟨hvalue, suffix, _, hmanaged⟩ := DatabaseName.fromExisting_eq_some.mp hcandidate.managed
      refine (Server.find_drop _ _).trans (if_neg fun heq => ?_)
      rw [hvalue, hmanaged] at heq
      exact managed_ne_template0 heq.symm
    generalize t.server = server at hturn ⊢
    cases hturn with
    | dropped => exact hdrop rfl
    | droppedUnseen => exact hdrop rfl
    | lockFailed hdatabases => rw [Server.find, hdatabases, Server.find]
    | unlockFailed hdatabases => rw [Server.find, hdatabases, Server.find]
    | _ => rfl
  | wrote _ _ _ _ hserver => rw [hserver]; exact hput
  | @clientsChanged name db clients hdb hnone hserver =>
    rw [hserver, Server.find_put]
    split
    · rename_i hname
      subst hname
      cases hbefore.symm.trans hdb
      rw [hnone hclosed hclients, hbefore]
      obtain ⟨oid, comment, allow, clients, content⟩ := before
      cases hclients
      rfl
    · rfl
  | performed hpermits hrun => exact Server.execute_find hrun (permitted hpermits).template0

/-- What a live attempt reads as its source's content is what its template needs. -/
theorem source_content (hs : Sound plan s) (hr : Recorded plan s) (hn : n ∈ plan.nodes) {handle : Option Nat}
    (h : s.hasSource n handle = true) {original : Database χ}
    (horiginal : s.server.find (plan.request n).source = some original) :
    original.content = plan.sourceContent n.lineage := by
  obtain ⟨project, lineage⟩ := n
  cases lineage with
  | root spec =>
    obtain ⟨db, hdb, hcontent, _⟩ := hs.template0
    cases hdb.symm.trans horiginal
    exact hcontent
  | derived parent step =>
    obtain ⟨j, hj, hretains⟩ := Option.any_eq_true _ _ |>.mp h
    rw [State.retains] at hretains
    split at hretains
    · rename_i m handle' now waiting hc
      cases beq_iff_eq.mp hretains
      have hm := hr.member j _ _ _ _ _ ⟨hc, rfl⟩
      obtain ⟨db, hdb, htagged⟩ := hs.facts j _ _ _ _ _ ⟨hc, rfl⟩ rfl
      cases hdb.symm.trans horiginal
      exact (hs.isSealed _ hm _ hdb htagged).built
    · cases hretains

theorem sound_initial (h : Initial plan s) : Sound plan s := by
  refine ⟨fun n hn db hdb => ?_, fun i c n handle now phase hc => ?_, h.template0⟩
  · rw [h.absent n hn] at hdb
    cases hdb
  · have := hc.client
    rw [h.clients] at this
    cases this

theorem sealed_step (hs : Sound plan s) (hr : Recorded plan s) {actor : Option Nat} (h : Transition plan s t actor)
    (hn : n ∈ plan.nodes) (hdb : t.server.find (plan.request n).name.value = some db) (htagged : Tagged plan n .ready db) :
    Sealed plan n db := by
  cases change_of_transition hr h hn with
  | same hsame => exact hs.isSealed n hn db (hsame ▸ hdb) htagged
  | clients hbefore hclosed hafter =>
    cases hafter.symm.trans hdb
    have hsealed := hs.isSealed n hn _ hbefore htagged
    exact ⟨hsealed.closed, hclosed hsealed.closed hsealed.deserted, hsealed.built⟩
  | turned _ hc hconnected _ _ hturn =>
    exact turn_sealed (hs.isSealed n hn) hturn (hs.facts _ _ _ _ _ _ hc hconnected) db hdb htagged
  | wrote _ hc hconnected hbefore _ hafter =>
    obtain ⟨before, hbefore', hinit, _⟩ := hs.facts _ _ _ _ _ _ hc hconnected
    cases hbefore.symm.trans hbefore'
    cases hafter.symm.trans hdb
    cases hinit.unique htagged
  | swept _ _ _ _ hafter =>
    rw [hafter] at hdb
    cases hdb

/-- Where an attempt has facts about its template it has the template's lock, but for one that waits
for the exclusive lock. -/
theorem lock_of_facts (plan : Plan χ) (n : Node) (phase : Phase) :
    (∃ l mode, holds (plan.request n) phase = some l ∧ ((plan.request n).lockKey, mode) ∈ l) ∨
      (∀ found, Facts plan n phase found) ∨ phase = .lockExclusive := by
  have hfirst : ∀ {phase mode rest}, holds (plan.request n) phase = some (((plan.request n).lockKey, mode) :: rest) →
      ∃ l mode, holds (plan.request n) phase = some l ∧ ((plan.request n).lockKey, mode) ∈ l :=
    fun h => ⟨_, _, h, List.mem_cons_self ..⟩
  cases phase with
  | lockShared => exact Or.inr (Or.inl fun _ => trivial)
  | lockCoordination => exact Or.inr (Or.inl fun _ => trivial)
  | lockExclusive => exact Or.inr (Or.inr rfl)
  | aborted => exact Or.inr (Or.inl fun _ => trivial)
  | stopped => exact Or.inr (Or.inl fun _ => trivial)
  | discarded => exact Or.inr (Or.inl fun _ => trivial)
  | abortUnlockCoordination => exact Or.inr (Or.inl fun _ => trivial)
  | unlockCoordination check ready =>
    cases ready with
    | true => exact Or.inl (hfirst rfl)
    | false => exact Or.inr (Or.inl fun _ => trivial)
  | inspect check => cases check <;> exact Or.inl (hfirst rfl)
  | unlockShared check => cases check <;> exact Or.inl (hfirst rfl)
  | _ => exact Or.inl (hfirst rfl)

/-- The facts of an attempt survive what others do. -/
theorem facts_stayed (ht : Tidy plan s) (hr : Recorded plan s) {actor : Option Nat} (h : Transition plan s t actor)
    {c : Client Program} {handle : Option Nat} {now : UInt64} {phase : Phase} (hc : s.Attempts i c n handle now phase)
    (hconnected : c.connected = true) (hactor : actor ≠ some i ∨ SameCatalog s.server t.server)
    (hfacts : Facts plan n phase (s.server.find (plan.request n).name.value)) :
    Facts plan n phase (t.server.find (plan.request n).name.value) := by
  rcases hactor with hactor | hsame
  swap
  · rw [hsame.find]
    exact hfacts
  have hprogram : ∀ {l}, holds (plan.request n) phase = some l → Program.holds plan c.program = some l := by
    intro l hl
    rw [hc.program]
    exact hl
  -- whoever has the template's key exclusively is alone with it
  have halone : ∀ {j : Nat} {d : Client Program} {l : List (Int64 × Mode)}, actor = some j → s.clients[j]? = some d →
      d.connected = true → Program.holds plan d.program = some l → ((plan.request n).lockKey, .exclusive) ∈ l →
      (∀ found, Facts plan n phase found) ∨ phase = .lockExclusive := by
    intro j d l hj hd hconnected' hl hmem
    rcases lock_of_facts plan n phase with ⟨m, mode, hm, hmem'⟩ | hfree
    · have hij := ht.exclusive hd hconnected' hl hmem hc.client hconnected (hprogram hm) hmem'
      exact absurd (hij ▸ hj) hactor
    · exact hfree
  cases change_of_transition hr h (hr.member _ _ _ _ _ _ hc) with
  | same hsame => rw [hsame]; exact hfacts
  | clients hbefore hclosed hafter =>
    rw [hafter]
    rw [hbefore] at hfacts
    exact facts_clients hfacts hclosed
  | @turned j d handle' now' before after l hj hd hconnected' hl hmem hturn =>
    rcases halone hj hd.client hconnected' (by rw [hd.program]; exact hl) hmem with hfree | rfl
    · exact hfree _
    · intro db hdb htagged
      rcases turn_ready hturn hdb htagged with rfl | ⟨before, hbefore, hready⟩
      · -- two attempts would have the coordination lock
        have hij := ht.exclusive hc.client hconnected (hprogram rfl) (List.mem_singleton_self _) hd.client hconnected'
          (by rw [hd.program]; rfl) (List.mem_cons_of_mem _ (List.mem_singleton_self _))
        exact hactor (hij ▸ hj)
      · exact hfacts before hbefore hready
  | wrote hj hd hconnected' hbefore _ hafter =>
    rcases halone hj hd.client hconnected' (by rw [hd.program]; rfl) (List.mem_cons_self ..) with hfree | rfl
    · exact hfree _
    · intro db hdb htagged
      cases hafter.symm.trans hdb
      exact hfacts _ hbefore htagged
  | swept hj hd hconnected' hl hafter =>
    rcases halone hj hd.client hconnected' (by rw [hd.program]; exact hl) (List.mem_singleton_self _) with hfree | rfl
    · exact hfree _
    · intro db hdb
      rw [hafter] at hdb
      cases hdb

theorem facts_step (ht : Tidy plan s) (hr : Recorded plan s) (hs : Sound plan s) {actor : Option Nat}
    (h : Transition plan s t actor) {d : Client Program} {handle : Option Nat} {now : UInt64} {phase : Phase}
    (hd : t.Attempts i d n handle now phase) (hconnected : d.connected = true) :
    Facts plan n phase (t.server.find (plan.request n).name.value) := by
  cases course_of_transition h hd with
  | begun => trivial
  | turned hc hsame hturn hsource =>
    have hn := hr.member _ _ _ _ _ _ hc
    rw [hsame] at hconnected
    have hlive := (Bool.and_eq_true_iff.mp hconnected).1
    refine turn_facts (hr.own n hn) (fun hcreate htag original => ?_) hturn (hs.facts _ _ _ _ _ _ hc hlive)
    exact source_content hs hr hn (hsource hcreate htag)
  | @wrote c now done db change hc hconnected' hbefore hchange hserver =>
    obtain ⟨before, hbefore', hinit, hcontent⟩ := hs.facts _ _ _ _ _ _ hc hconnected'
    cases hbefore.symm.trans hbefore'
    rw [hserver, Server.find_put, if_pos rfl]
    refine ⟨_, rfl, hinit, ?_⟩
    obtain ⟨hdone, rfl⟩ := List.getElem?_eq_some_iff.mp hchange
    rw [build, List.take_succ_eq_append_getElem hdone, List.foldl_append]
    exact congrArg (plan.initializer n.lineage)[done] hcontent
  | returned hc hconnected' hphase hserver =>
    obtain ⟨before, hbefore, hinit, hcontent⟩ := hs.facts _ _ _ _ _ _ hc hconnected'
    rcases hphase with ⟨rfl, rfl⟩ | rfl
    · rw [hserver]
      refine ⟨before, hbefore, ?_⟩
      rw [hcontent, List.take_length, plan.content_eq]
    · trivial
  | stayed hc hkeeps hactor =>
    exact facts_stayed ht hr h hc (hkeeps hconnected) hactor (hs.facts _ _ _ _ _ _ hc (hkeeps hconnected))

theorem sound (hs : (machine plan).Reachable s) : Sound plan s := by
  refine Machine.Invariant.holds (m := machine plan) ⟨fun s h => sound_initial h, fun s a t hreach ih h => ?_⟩ hs
  have htransition := step_transition h
  have hr := recorded hreach
  refine ⟨fun n hn db hdb htagged => sealed_step ih hr htransition hn hdb htagged,
    fun i c n handle now phase hc hconnected => facts_step (tidy hreach) hr ih htransition hc hconnected, ?_⟩
  obtain ⟨db, hdb, hcontent, hclients, hclosed⟩ := ih.template0
  exact ⟨db, template0_step hr htransition hdb hclients hclosed, hcontent, hclients, hclosed⟩

/-- A database that says it is a ready template is the database of that template, of one of the
project's lineages; it holds what the lineage's initializers make of `template0`, one after the
other, nobody can connect to it, and nobody is connected. -/
theorem ready_template_content (hs : (machine plan).Reachable s) {name : Text} (hdb : s.server.find name = some db)
    {project : ProjectName} {lockKey : Int64} {fingerprint : TemplateFingerprint} {parent : Option TemplateFingerprint}
    {created : UInt64} (hready : db.comment.bind ResourceMetadata.parse =
      some (.template project lockKey fingerprint parent .ready created)) :
    ∃ n ∈ plan.nodes, name = (plan.request n).name.value ∧ n.project = project ∧
      n.lineage.identity plan.sha256 = ⟨fingerprint, parent⟩ ∧ lockKey = (plan.request n).lockKey ∧
      db.content = plan.content n.lineage ∧ db.allowConnections = false ∧ db.clients = [] := by
  have hr := recorded hs
  obtain ⟨text, hcomment, hparse⟩ := Option.bind_eq_some_iff.mp hready
  by_cases hname : ∀ n ∈ plan.nodes, name ≠ (plan.request n).name.value
  · have := hr.foreign name db text hdb hname hcomment
    rw [templateRecord, hparse] at this
    cases this
  · simp only [not_forall, ne_eq, not_not] at hname
    obtain ⟨n, hn, rfl⟩ := hname
    obtain ⟨state, created', rfl⟩ := hr.own n hn db hdb text hcomment
    rw [ResourceMetadata.parse_encode, Option.some.injEq] at hparse
    cases hparse
    have hsealed := (sound hs).isSealed n hn db hdb ⟨created, hcomment⟩
    exact ⟨n, hn, rfl, rfl, rfl, rfl, hsealed.built, hsealed.closed, hsealed.deserted⟩

section Example

def sampleProject : ProjectName := ⟨"shop".toList, rejection_shop⟩

def sampleChildHex : String := "1d701fd5e882adc42733d49b6b3d63e23b0764985862be7ab470ac14a627e2f5"

/-- SHA-256 of what is hashed for a root with one step, and for their keys. -/
def templateSha256 : List UInt8 → Digest :=
  tabulated
    [(frames [derivedDomain, (decodeHex sampleRootHex.toList).getD [], (decodeHex sampleStepHex.toList).getD []],
        sampleChildHex),
      (advisoryPreimage templateDomainName ("shop:".toList ++ sampleRootHex.toList),
        "5983f23a263502c69d1df759f5959bf072af3db0ea4330ff89df16220fadb965"),
      (advisoryPreimage coordinationDomainName ("shop:".toList ++ sampleRootHex.toList),
        "8d14b8491ac0475a0dc0e4b04011b24bc60582fc324b15d5400b2a9377504432"),
      (advisoryPreimage templateDomainName ("shop:".toList ++ sampleChildHex.toList),
        "5bde9ec27ced4a696cd92062cc35d2b0bfaba0be7a3daeea662ff1f768558121"),
      (advisoryPreimage coordinationDomainName ("shop:".toList ++ sampleChildHex.toList),
        "d37fd46e452b1121376b762fd05b6b13573afe75866113bcda0998e4887d4dba")]

def rootNode : Node := ⟨sampleProject, .root (sampleRoot.build.finishRoot sampleSha256)⟩

def childNode : Node :=
  ⟨sampleProject, .derived (.root (sampleRoot.build.finishRoot sampleSha256)) (sampleStep.build.finishStep sampleSha256)⟩

def samplePlan : Plan Nat where
  sha256 := templateSha256
  template0 := 1
  rootInitializer _ := [fun content => content + 1, fun content => content * 10]
  stepInitializer _ := [fun content => content + 3]
  nodes := [rootNode, childNode]
  closed := by
    intro n hn p hp
    rcases List.mem_cons.mp hn with rfl | hn
    · cases hp
    · rw [List.mem_singleton.mp hn] at hp
      cases hp
      exact List.mem_cons_self ..
  namesApart := by decide +kernel
  locksApart := by decide +kernel
  coordinationsApart := by decide +kernel
  keysApart := by decide +kernel

/-- A server with `template0` alone. -/
def start : State Nat where
  server :=
    { databases := (∅ : AList fun _ : Text => Database Nat).insert "template0".toList ⟨0, none, false, [], 1⟩
      locks := Table.empty
      nextOid := 1
      drops := [] }
  clients := []

theorem start_initial : Initial samplePlan start := by
  have hnone : ∀ name, name ≠ "template0".toList → start.server.find name = none := fun name hname =>
    AList.lookup_insert_ne hname
  refine ⟨rfl, rfl, ⟨_, AList.lookup_insert _, rfl, rfl, rfl⟩, fun n _ => hnone _ (name_ne_template0 samplePlan n),
    fun name db text hdb hcomment => ?_⟩
  by_cases hname : name = "template0".toList
  · rw [hname, show start.server.find "template0".toList = _ from AList.lookup_insert _] at hdb
    cases hdb
    cases hcomment
  · rw [hnone name hname] at hdb
    cases hdb

/-- An attempt at the root, on session 0, that comes to a handle. -/
def buildRoot : List (Action Nat) :=
  .begin rootNode none 100 :: List.replicate 17 (.advance 0 .ok) ++
    [.connect (samplePlan.request rootNode).name.value 0, .write 0, .write 0, .initialized 0] ++
    List.replicate 9 (.advance 0 .ok)

/-- Then one at its child, on session 1. -/
def buildChild : List (Action Nat) :=
  .begin childNode (some 0) 200 :: List.replicate 17 (.advance 1 .ok) ++
    [.connect (samplePlan.request childNode).name.value 1, .write 1, .initialized 1] ++
    List.replicate 9 (.advance 1 .ok)

/-- The child holds 23: 1, and one more, ten times, and three more. -/
theorem ready_template_content_child : ∃ s : State Nat, (machine samplePlan).Reachable s ∧
    ∃ db, s.server.find (samplePlan.request childNode).name.value = some db ∧
      db.content = 23 ∧ db.allowConnections = false ∧ db.clients = [] := by
  have hrun : ((machine samplePlan).run start (buildRoot ++ buildChild)).any (fun s =>
      (s.server.find (samplePlan.request childNode).name.value).any fun db =>
        db.comment.bind ResourceMetadata.parse == some ((samplePlan.request childNode).metadata .ready 200)) = true := by
    decide +kernel
  obtain ⟨s, hs, hfound⟩ := (Option.any_eq_true _ _).mp hrun
  obtain ⟨db, hdb, hready⟩ := (Option.any_eq_true _ _).mp hfound
  have hreachable := Machine.reachable_of_run (m := machine samplePlan) _ start_initial hs
  obtain ⟨n, hn, hname, _, _, _, hcontent, hclosed, hclients⟩ :=
    ready_template_content hreachable hdb (beq_iff_eq.mp hready)
  cases samplePlan.namesApart n hn childNode (List.mem_cons_of_mem _ (List.mem_singleton_self _)) hname.symm
  exact ⟨s, hreachable, db, hdb, hcontent, hclosed, hclients⟩

end Example

end PostgresTestHarness.Template
