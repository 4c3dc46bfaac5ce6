import PostgresTestHarness.Disposable.Steps

/-! What the server has of the disposable databases.

A database has no record but its own, in the catalog and in what sweeps have read of it (`Stored`), so that
a sweep drops it under the owner's key, which no sweep gets while the owner lives (`Catalog.barred`). It
holds what its holders have made of what it was copied from. -/
namespace PostgresTestHarness.Disposable
open Postgres Admission

variable {χ : Type}

/-- No comment yet, or the record of a disposable database of this harness. -/
def Own (cfg : Config χ) (comment : Option Text) : Prop :=
  ∀ text, comment = some text → ∃ now, text = (cfg.metadata now).encode

/-- There is a database, as long as no sweep takes it. -/
def Place.sure : Place → Bool
  | .tagged | .held | .refilled => true
  | _ => false

/-- What is known of one database on the server. -/
structure Stored (cfg : Config χ) (s : State χ) (m : Made χ) : Prop where
  named : ∃ uuid, m.name = .test cfg.project uuid
  own : ∀ db, s.base.server.find m.name.value = some db → Own cfg db.comment
  listed : ∀ i c sw phase, s.base.Sweeps i c sw phase → ∀ record ∈ phase.ahead, record.name = m.name.value →
    Own cfg record.comment
  content : m.supplied = true → ∀ db, s.base.server.find m.name.value = some db →
    db.content = Template.build m.changes (m.source.content cfg.plan)
  clean : m.place = .unmade → m.changes = []
  absent : m.place = .unmade ∨ m.place = .gone → s.base.server.find m.name.value = none
  present : s.ownerAlive = true → m.place.sure = true →
    ∃ db now, s.base.server.find m.name.value = some db ∧ db.comment = some (cfg.metadata now).encode

structure Catalog (cfg : Config χ) (s : State χ) : Prop where
  safe : Template.Safe cfg.plan s.base
  apart : ∀ (i j : Nat) m m', s.made[i]? = some m → s.made[j]? = some m' → m.name.value = m'.name.value → i = j
  barred : s.ownerAlive = true → ∀ i c sw phase, s.base.Sweeps i c sw phase →
    StaleCleanup.holds phase ≠ some [(cfg.ownerKey, .exclusive)]
  stored : ∀ (i : Nat) m, s.made[i]? = some m → Stored cfg s m

section Names
variable {cfg : Config χ} {s : State χ} {m : Made χ}

theorem Stored.bystander (h : Stored cfg s m) : Template.Apart cfg.plan m.name.value := by
  obtain ⟨uuid, hname⟩ := h.named
  rw [hname]
  exact Template.apart_test cfg.plan cfg.project uuid

theorem parse_metadata (cfg : Config χ) (now : UInt64) :
    ResourceMetadata.parse (cfg.metadata now).encode = some (.test cfg.project cfg.ownerKey now) :=
  ResourceMetadata.parse_encode _

/-- A sweep that is to drop a disposable database holds the owner's key. -/
theorem Stored.key_of_dropping (h : Stored cfg s m) (hs : Template.Recorded cfg.plan s.base) {i : Nat}
    {c : Client Template.Program} {sw : StaleCleanup.Sweep} {record : DatabaseRecord} {key : Int64} {name : DatabaseName}
    {rest : List DatabaseRecord} {report : StaleCleanup.CleanupReport}
    (hc : s.base.Sweeps i c sw (.dropping record key name rest report)) (hname : name.value = m.name.value) :
    key = cfg.ownerKey := by
  obtain ⟨metadata, hcandidate, rfl⟩ := StaleCleanup.classify_eq_candidate.mp (hs.grounded _ _ _ _ hc)
  have hvalue := (DatabaseName.fromExisting_eq_some.mp hcandidate.managed).1
  obtain ⟨text, hcomment, hparse⟩ := Option.bind_eq_some_iff.mp hcandidate.parses
  obtain ⟨now, rfl⟩ := h.listed _ _ _ _ hc record (List.mem_cons_self ..) (hvalue.symm.trans hname) text hcomment
  rw [parse_metadata, Option.some.injEq] at hparse
  rw [← hparse]
  rfl

end Names

/-! ### The gate's steps -/

section Moves
variable {cfg : Config χ} {s t : State χ} {i : Nat} {m m' : Made χ}

theorem Stored.of_base (h : Stored cfg s m) (base : t.base = s.base) (owner : t.ownerAlive = true → s.ownerAlive = true) :
    Stored cfg t m := by
  refine ⟨h.named, ?_, ?_, ?_, h.clean, ?_, fun halive => ?_⟩
  all_goals rw [base]
  · exact h.own
  · exact h.listed
  · exact h.content
  · exact h.absent
  · exact h.present (owner halive)

/-- The server does not see it, nor does a database move. -/
theorem Catalog.still (hs : Catalog cfg s) (base : t.base = s.base) (owner : t.ownerAlive = true → s.ownerAlive = true)
    (made : t.made = s.made) : Catalog cfg t := by
  refine ⟨base ▸ hs.safe, made ▸ hs.apart, fun halive => ?_, fun i m hm => ?_⟩
  · rw [base]
    exact hs.barred (owner halive)
  · exact (hs.stored i m (made ▸ hm)).of_base base owner

/-- A database goes to another place, and the server does not see it. -/
theorem Catalog.moved (hs : Catalog cfg s) (base : t.base = s.base) (owner : t.ownerAlive = s.ownerAlive)
    (found : s.made[i]? = some m) (made : t.made = s.made.set i m') (name : m'.name = m.name) (source : m'.source = m.source)
    (supplied : m'.supplied = m.supplied) (changes : m'.changes = m.changes) (unmade : m'.place = .unmade → m.place = .unmade)
    (gone : m'.place = .gone → m.place = .unmade ∨ m.place = .gone) (sure : m'.place.sure = true → m.place.sure = true) :
    Catalog cfg t := by
  have hstored : ∀ {e : Made χ}, Stored cfg s e → Stored cfg t e := fun h => h.of_base base (owner ▸ id)
  refine ⟨base ▸ hs.safe, fun j k e e' he he' hname => ?_, ?_, fun j e he => ?_⟩
  · rw [made] at he he'
    obtain ⟨x, hx, hxn⟩ := Ledger.kept_of_set Made.name found name he
    obtain ⟨y, hy, hyn⟩ := Ledger.kept_of_set Made.name found name he'
    exact hs.apart j k x y hx hy (by rw [← hxn, ← hyn, hname])
  · rw [base, owner]
    exact hs.barred
  · rw [made] at he
    obtain ⟨rfl, rfl⟩ | ⟨_, he⟩ := Ledger.getElem?_set_cases he
    · have h := hstored (hs.stored j m found)
      refine ⟨name ▸ h.named, name ▸ h.own, name ▸ h.listed, ?_, fun hu => changes ▸ h.clean (unmade hu), fun hplace => ?_,
        fun halive hsure => name ▸ h.present halive (sure hsure)⟩
      · rw [supplied, name, source, changes]
        exact h.content
      · rw [name]
        exact h.absent (hplace.elim (fun hu => Or.inl (unmade hu)) gone)
    · exact hstored (hs.stored j e he)

/-- One more database, of a name that is nowhere. -/
theorem Catalog.concat (hs : Catalog cfg s) (base : t.base = s.base) (owner : t.ownerAlive = s.ownerAlive)
    {uuid : SimpleUuid} {source : Source} {refills : Option Nat}
    (made : t.made = s.made ++ [⟨.test cfg.project uuid, source, refills, none, .unmade, false, []⟩])
    (fresh : s.fresh (.test cfg.project uuid) = true) : Catalog cfg t := by
  simp only [State.fresh, Bool.and_eq_true, List.all_eq_true, Option.isNone_iff_eq_none, bne_iff_ne] at fresh
  obtain ⟨⟨hnone, hothers⟩, hread⟩ := fresh
  have hnew : ∀ {j : Nat} {e : Made χ}, s.made[j]? = some e → e.name.value ≠ (DatabaseName.test cfg.project uuid).value := by
    intro j e he heq
    obtain ⟨uuid', hname⟩ := (hs.stored j e he).named
    refine hothers e (List.mem_of_getElem? he) (DatabaseName.ext_value heq ?_)
    rw [hname]
    rfl
  refine ⟨base ▸ hs.safe, fun j k e e' he he' hname => ?_, ?_, fun j e he => ?_⟩
  · rw [made] at he he'
    obtain ⟨rfl, rfl⟩ | he₀ := Ledger.getElem?_concat_cases he
    · obtain ⟨rfl, _⟩ | he₁ := Ledger.getElem?_concat_cases he'
      · rfl
      · exact absurd hname.symm (hnew he₁)
    · obtain ⟨rfl, rfl⟩ | he₁ := Ledger.getElem?_concat_cases he'
      · exact absurd hname (hnew he₀)
      · exact hs.apart j k e e' he₀ he₁ hname
  · rw [base, owner]
    exact hs.barred
  · rw [made] at he
    obtain ⟨_, rfl⟩ | he := Ledger.getElem?_concat_cases he
    · refine ⟨⟨uuid, rfl⟩, ?_, ?_, nofun, fun _ => rfl, fun _ => ?_, nofun⟩
      · rw [base, hnone]
        nofun
      · intro k c sw phase hc record hrecord hname
        rw [base] at hc
        have hclient := hread c (List.mem_of_getElem? hc.client)
        rw [hc.program] at hclient
        exact absurd hname (bne_iff_ne.mp (List.all_eq_true.mp hclient record hrecord))
      · rw [base]
        exact hnone
    · exact (hs.stored j e he).of_base base (owner ▸ id)

end Moves

/-! ### Statements of the harness -/

section Statements
variable {cfg : Config χ} {s t : State χ} {i : Nat} {m m' : Made χ} {base : Template.State χ}

/-- A statement that has been run, or none. -/
theorem perform_cases {stmt : Statement Unit} {executed : Bool} (h : s.perform stmt executed = some { s with base }) :
    executed = false ∧ base = s.base ∨ executed = true ∧ base.clients = s.base.clients ∧
      s.base.server.execute s.base.clients.length stmt = some (base.server, ()) := by
  rw [State.perform] at h
  split at h
  · rename_i hexecuted
    obtain ⟨⟨server, _⟩, hrun, heq⟩ := Option.map_eq_some_iff.mp h
    cases congrArg State.base heq
    exact Or.inr ⟨hexecuted, rfl, hrun⟩
  · rename_i hexecuted
    rw [Bool.not_eq_true] at hexecuted
    exact Or.inl ⟨hexecuted, (congrArg State.base (Option.some.inj h)).symm⟩

/-- A statement on a disposable database that writes no template's record. -/
theorem safe_statement (hs : Template.Safe cfg.plan s.base) {stmt : Statement Unit} {name : Text}
    (hname : Template.Apart cfg.plan name) (htarget : stmt.target = some name) (hlocking : stmt.locking = false)
    (hrecord : Template.writesRecord stmt = false) (hclients : base.clients = s.base.clients)
    (hrun : s.base.server.execute s.base.clients.length stmt = some (base.server, ())) : Template.Safe cfg.plan base := by
  refine Template.safe_step hs (a := .other s.base.clients.length stmt) ?_
  rw [Template.step, if_pos]
  · rw [hrun, Option.map_some]
    congr 1
    rw [← hclients]
  · rw [Template.Plan.permits, hlocking, htarget, hrecord]
    simp only [Bool.not_false, Bool.true_and, Bool.and_true, Option.all_some, Bool.and_eq_true, bne_iff_ne, List.all_eq_true]
    exact ⟨hname.template0, fun n hn heq => hname.nodes n hn heq.symm⟩

/-- The harness's statement on a database changes that database. -/
theorem Catalog.stated (hs : Catalog cfg s) (found : s.made[i]? = some m) {stmt : Statement Unit} {executed : Bool}
    (performed : s.perform stmt executed = some { s with base }) (target : stmt.target = some m.name.value)
    (locking : stmt.locking = false) (record : Template.writesRecord stmt = false) (tbase : t.base = base)
    (owner : t.ownerAlive = s.ownerAlive) (made : t.made = s.made.set i m') (name : m'.name = m.name)
    (stored : (∀ i c sw phase, t.base.Sweeps i c sw phase → ∀ record ∈ phase.ahead, record.name = m.name.value →
      Own cfg record.comment) → Stored cfg t m') : Catalog cfg t := by
  have hclients : base.clients = s.base.clients := by
    obtain ⟨_, rfl⟩ | ⟨_, hclients, _⟩ := perform_cases performed
    · rfl
    · exact hclients
  have hsweeps : ∀ {j c sw phase}, t.base.Sweeps j c sw phase → s.base.Sweeps j c sw phase := fun hc =>
    ⟨hclients ▸ tbase ▸ hc.client, hc.program⟩
  have hother : ∀ {j : Nat} {e : Made χ}, s.made[j]? = some e → j ≠ i →
      t.base.server.find e.name.value = s.base.server.find e.name.value := by
    intro j e he hji
    rw [tbase]
    obtain ⟨_, rfl⟩ | ⟨_, _, hrun⟩ := perform_cases performed
    · rfl
    · refine Server.execute_find hrun fun heq => hji ?_
      exact hs.apart j i e m he found (Option.some.inj (heq.symm.trans target))
  refine ⟨?_, fun j k e e' he he' hname => ?_, fun halive j c sw phase hc => ?_, fun j e he => ?_⟩
  · obtain ⟨_, rfl⟩ | ⟨_, hclients, hrun⟩ := perform_cases performed
    · exact tbase ▸ hs.safe
    · exact tbase ▸ safe_statement hs.safe (hs.stored i m found).bystander target locking record hclients hrun
  · rw [made] at he he'
    obtain ⟨x, hx, hxn⟩ := Ledger.kept_of_set Made.name found name he
    obtain ⟨y, hy, hyn⟩ := Ledger.kept_of_set Made.name found name he'
    exact hs.apart j k x y hx hy (by rw [← hxn, ← hyn, hname])
  · exact hs.barred (owner ▸ halive) j c sw phase (hsweeps hc)
  · rw [made] at he
    obtain ⟨rfl, rfl⟩ | ⟨hji, he⟩ := Ledger.getElem?_set_cases he
    · exact stored fun k c sw phase hc => (hs.stored j m found).listed k c sw phase (hsweeps hc)
    · have h := hs.stored j e he
      refine ⟨h.named, ?_, fun k c sw phase hc => h.listed k c sw phase (hsweeps hc), ?_, h.clean, ?_, ?_⟩
      all_goals rw [hother he hji]
      · exact h.own
      · exact h.content
      · exact h.absent
      · rw [owner]
        exact h.present

/-- What a source supplies is what it has to hold. -/
theorem supplied_content (hs : Template.Safe cfg.plan s.base) {source : Source} (h : s.supplies source = true)
    {db : Database χ} (hdb : s.base.server.find (source.name cfg.plan) = some db) : db.content = source.content cfg.plan := by
  cases source with
  | empty =>
    obtain ⟨original, horiginal, hcontent, _⟩ := hs.sound.template0
    cases hdb.symm.trans horiginal
    exact hcontent
  | template node handle => exact Template.content_of_retains hs h hdb

/-- A database with its statement run, or not: `CREATE`. -/
theorem Stored.created (h : Stored cfg s m) (hs : Template.Safe cfg.plan s.base) (unmade : m.place = .unmade)
    {result : Except Error Unit} {effect : Bool}
    (performed : s.perform (.create m.name.value (m.source.name cfg.plan)) (executed effect result) = some { s with base })
    (tbase : t.base = base)
    (listed : ∀ i c sw phase, t.base.Sweeps i c sw phase → ∀ record ∈ phase.ahead, record.name = m.name.value →
      Own cfg record.comment) : Stored cfg t (m.answered (s.supplies m.source) .creating result) := by
  have hnone := h.absent (Or.inl unmade)
  have hplace : (attemptPlace (Attempt.creating.answer result)).sure = false ∧
      attemptPlace (Attempt.creating.answer result) ≠ .unmade ∧
      (attemptPlace (Attempt.creating.answer result) = .gone → executed effect result = false) := by
    cases result with
    | ok _ => exact ⟨rfl, nofun, nofun⟩
    | error error =>
      rw [Attempt.answer, attemptPlace, classifyDatabaseCreationFailure.eq_def]
      split
      · exact ⟨rfl, nofun, fun _ => Bool.and_false _⟩
      · exact ⟨rfl, nofun, nofun⟩
  obtain ⟨hsure, hunmade, hgone⟩ := hplace
  obtain ⟨_, rfl⟩ | ⟨hexecuted, _, hrun⟩ := perform_cases performed
  · have hfind : t.base.server.find m.name.value = none := by rw [tbase, hnone]
    refine ⟨h.named, fun db hdb => ?_, listed, fun _ db hdb => ?_, fun hu => absurd hu hunmade, fun _ => hfind, fun _ hs => ?_⟩
    · cases hfind.symm.trans hdb
    · cases hfind.symm.trans hdb
    · cases hsure.symm.trans hs
  · obtain ⟨u, hu, heq⟩ := Option.map_eq_some_iff.mp hrun
    obtain ⟨_, original, horiginal, _, rfl⟩ := Server.createDatabase_eq_some.mp hu
    have hserver : base.server = _ := (congrArg Prod.fst heq).symm
    have hfind : t.base.server.find m.name.value = some ⟨s.base.server.nextOid, none, true, [], original.content⟩ := by
      rw [tbase, hserver]
      exact (Server.find_put _ _ _).trans (if_pos rfl)
    refine ⟨h.named, fun db hdb => ?_, listed, fun hsupplied db hdb => ?_, fun hu => absurd hu hunmade, fun hp => ?_,
      fun _ hs => ?_⟩
    · cases hfind.symm.trans hdb
      nofun
    · cases hfind.symm.trans hdb
      rw [show (m.answered (s.supplies m.source) .creating result).changes = m.changes from rfl, h.clean unmade]
      have hcontent := supplied_content hs hsupplied horiginal
      exact hcontent
    · obtain hp | hp := hp
      · exact absurd hp hunmade
      · cases hexecuted.symm.trans (hgone hp)
    · cases hsure.symm.trans hs

/-- The same with `COMMENT`. -/
theorem Stored.commented (h : Stored cfg s m) {now : UInt64} {result : Except Error Unit} {effect : Bool}
    (performed : s.perform (.comment m.name.value (cfg.metadata now).encode) (executed effect result) = some { s with base })
    (tbase : t.base = base)
    (listed : ∀ i c sw phase, t.base.Sweeps i c sw phase → ∀ record ∈ phase.ahead, record.name = m.name.value →
      Own cfg record.comment) : Stored cfg t (m.answered (s.supplies m.source) .tagging result) := by
  have hplace : ∀ {p}, attemptPlace (Attempt.tagging.answer result) = p → p = .tagged ∧ result = .ok () ∨ p = .doubtful := by
    intro p hp
    cases result with
    | ok _ => exact Or.inl ⟨hp.symm, rfl⟩
    | error _ => exact Or.inr hp.symm
  have hnowhere : ¬ (attemptPlace (Attempt.tagging.answer result) = .unmade ∨
      attemptPlace (Attempt.tagging.answer result) = .gone) := by
    intro hp
    obtain hp | hp := hp
    all_goals obtain ⟨hp, _⟩ | hp := hplace hp <;> cases hp
  obtain ⟨hexecuted, rfl⟩ | ⟨_, _, hrun⟩ := perform_cases performed
  · refine ⟨h.named, tbase ▸ h.own, listed, tbase ▸ h.content, fun hu => absurd (Or.inl hu) hnowhere,
      fun hp => absurd hp hnowhere, fun _ hs => ?_⟩
    obtain ⟨_, rfl⟩ | hp := hplace rfl
    · cases hexecuted
    · cases (congrArg Place.sure hp).symm.trans hs
  · obtain ⟨u, hu, heq⟩ := Option.map_eq_some_iff.mp hrun
    obtain ⟨db, hdb, rfl⟩ := Server.alter_eq_some.mp hu
    have hserver : base.server = _ := (congrArg Prod.fst heq).symm
    have hfind : t.base.server.find m.name.value = some { db with comment := some (cfg.metadata now).encode } := by
      rw [tbase, hserver]
      exact (Server.find_put _ _ _).trans (if_pos rfl)
    refine ⟨h.named, fun db' hdb' => ?_, listed, fun hsupplied db' hdb' => ?_, fun hu => absurd (Or.inl hu) hnowhere,
      fun hp => absurd hp hnowhere, fun _ _ => ⟨_, now, hfind, rfl⟩⟩
    · cases hfind.symm.trans hdb'
      intro text htext
      exact ⟨now, (Option.some.inj htext).symm⟩
    · cases hfind.symm.trans hdb'
      exact h.content hsupplied db hdb

/-- The same with `DROP`, which leaves the database where `m'` says. -/
theorem Stored.dropped (h : Stored cfg s m) {result : Except Error Unit} {effect : Bool}
    (performed : s.perform (.drop m.name.value) (executed effect result) = some { s with base }) (tbase : t.base = base)
    (listed : ∀ i c sw phase, t.base.Sweeps i c sw phase → ∀ record ∈ phase.ahead, record.name = m.name.value →
      Own cfg record.comment) (name : m'.name = m.name) (source : m'.source = m.source) (supplied : m'.supplied = m.supplied)
    (changes : m'.changes = m.changes) (unmade : m'.place ≠ .unmade) (sure : m'.place.sure = false)
    (gone : m'.place = .gone → result = .ok ()) : Stored cfg t m' := by
  obtain ⟨hexecuted, rfl⟩ | ⟨_, _, hrun⟩ := perform_cases performed
  · refine ⟨name ▸ h.named, ?_, name ▸ listed, ?_, fun hu => absurd hu unmade, fun hp => ?_, fun _ hs => ?_⟩
    · rw [tbase, name]
      exact h.own
    · rw [tbase, name, supplied, source, changes]
      exact h.content
    · obtain hp | hp := hp
      · exact absurd hp unmade
      · rw [gone hp] at hexecuted
        cases hexecuted
    · cases sure.symm.trans hs
  · have hfind : t.base.server.find m'.name.value = none := by
      rw [tbase, name, show base.server = _ from (congrArg Prod.fst (Option.some.inj hrun)).symm]
      exact (Server.find_drop _ _).trans (if_pos rfl)
    refine ⟨name ▸ h.named, fun db hdb => ?_, name ▸ listed, fun _ db hdb => ?_, fun hu => absurd hu unmade,
      fun _ => hfind, fun _ hs => ?_⟩
    · cases hfind.symm.trans hdb
    · cases hfind.symm.trans hdb
    · cases sure.symm.trans hs

end Statements

/-! ### Sweeps, and everybody else -/

section Others
variable {cfg : Config χ} {s t : State χ} {base : Template.State χ} {a : Template.Action χ}

/-- A sweep comes to a lock by asking for it. -/
theorem holds_turn {sw : StaleCleanup.Sweep} {i : Nat} {connected : Bool} {u v : Server χ} {before after : StaleCleanup.Phase}
    {key : Int64} (h : StaleCleanup.Turn sw i connected u before v after)
    (hafter : StaleCleanup.holds after = some [(key, .exclusive)]) :
    StaleCleanup.holds before = some [(key, .exclusive)] ∨ ∃ record rest report, before = .locking record key rest report := by
  cases h with
  | @scanned record rest report =>
    rw [StaleCleanup.scan] at hafter
    split at hafter <;> cases hafter
  | @acquired record key' rest report =>
    cases hafter
    exact Or.inr ⟨record, rest, report, rfl⟩
  | @found record key' rest report =>
    rw [StaleCleanup.revalidated] at hafter
    split at hafter
    · cases hafter
      exact Or.inl rfl
    · cases hafter
      exact Or.inl rfl
  | findFailed | dropped | droppedUnseen | dropFailed =>
    cases hafter
    exact Or.inl rfl
  | @unlocked key' result rest report =>
    obtain _ | _ | _ := result <;> cases hafter
  | _ => cases hafter

/-- A sweep that asks for the owner's key goes on without it, or gives up. -/
theorem refuse_eq_some (h : s.refuse a = some base) : ∃ i c sw record key rest report after,
    s.base.Sweeps i c sw (.locking record key rest report) ∧ base.server = s.base.server ∧
    base.clients = s.base.clients.set i (c.goto (.sweep sw after)) ∧
    StaleCleanup.Turn sw i c.connected s.base.server (.locking record key rest report) s.base.server after ∧
    (after = .scanning rest report.skipActive ∨ after = .finished none) := by
  rw [State.refuse.eq_def] at h
  split at h
  · rename_i i o
    split at h
    · rename_i sw record key rest report waiting connected hc
      cases o with
      | ok =>
        obtain ⟨hconnected, heq⟩ := Option.ite_none_right_eq_some.mp h
        cases heq
        exact ⟨i, _, sw, record, key, rest, report, _, ⟨hc, rfl⟩, rfl, rfl, .refused hconnected, Or.inl rfl⟩
      | refused => cases h
      | failed effect =>
        cases h
        exact ⟨i, _, sw, record, key, rest, report, _, ⟨hc, rfl⟩, rfl, rfl, .lockFailed rfl rfl rfl, Or.inr rfl⟩
    · cases h
  · cases h

theorem tidy_refused (ht : Template.Tidy cfg.plan s.base) (h : s.refuse a = some base) : Template.Tidy cfg.plan base := by
  obtain ⟨i, c, sw, record, key, rest, report, after, hc, hserver, hclients, _, hafter⟩ := refuse_eq_some h
  refine ht.goto hc.client hclients (by rw [hserver]) rfl ?_ (fun _ => rfl) fun l hl => ?_
  · have hcode : Template.Program.code cfg.plan c.program = some (.run (.tryLock key)
        (fun acquired => .sweep sw (if acquired then .finding record key rest report else .scanning rest report.skipActive))
        (.sweep sw (.finished none))) := by
      rw [hc.program]
      rfl
    rw [requests_goto]
    exact requests_nil hcode rfl
  · rw [hc.program]
    obtain rfl | rfl := hafter
    · exact hl
    · cases hl

/-- What others do is a step of the templates' protocol. -/
theorem based_transition (ht : Template.Tidy cfg.plan s.base)
    (h : (if s.ownerAlive && s.asksOwner cfg a then s.refuse a else Template.step cfg.plan s.base a) = some base) :
    (∃ actor, Template.Transition cfg.plan s.base base actor) ∧ Template.Tidy cfg.plan base := by
  split at h
  · obtain ⟨i, c, sw, record, key, rest, report, after, hc, hserver, hclients, hturn, _⟩ := refuse_eq_some h
    exact ⟨⟨some i, .swept hc (hserver ▸ hturn) hclients⟩, tidy_refused ht h⟩
  · exact ⟨⟨_, Template.step_transition h⟩, Template.tidy_step ht h⟩

/-- No sweep gets the owner's key while the owner lives. -/
theorem barred_based (hs : Catalog cfg s) (halive : s.ownerAlive = true)
    (h : (if s.ownerAlive && s.asksOwner cfg a then s.refuse a else Template.step cfg.plan s.base a) = some base)
    {j : Nat} {d : Client Template.Program} {sw : StaleCleanup.Sweep} {phase : StaleCleanup.Phase}
    (hd : base.Sweeps j d sw phase) : StaleCleanup.holds phase ≠ some [(cfg.ownerKey, .exclusive)] := by
  have hbefore := hs.barred halive
  split at h
  · obtain ⟨i, c, sw', record, key, rest, report, after, hc, hserver, hclients, hturn, hafter⟩ := refuse_eq_some h
    have hj := hd.client
    rw [hclients] at hj
    obtain ⟨rfl, rfl⟩ | ⟨_, hj⟩ := Ledger.getElem?_set_cases hj
    · cases hd.program
      obtain rfl | rfl := hafter <;> nofun
    · exact hbefore j d sw phase ⟨hj, hd.program⟩
  · rename_i hasks
    rw [halive, Bool.true_and] at hasks
    by_cases ha : ∃ o, a = .advance j o
    · obtain ⟨o, rfl⟩ := ha
      obtain rfl | ⟨c, before, hc, hturn⟩ | ⟨c, hc⟩ := Template.sweeps_cases (Template.step_transition h) hd
      · nofun
      · intro hholds
        obtain hheld | ⟨record, rest, report, rfl⟩ := holds_turn hturn hholds
        · exact hbefore j c sw before hc hheld
        · refine hasks ?_
          obtain ⟨program, waiting, connected⟩ := c
          cases hc.program
          rw [State.asksOwner, hc.client]
          exact beq_self_eq_true _
      · exact hbefore j c sw phase hc
    · obtain rfl | ⟨c, hc⟩ := Template.sweep_stays h hd fun o ho => ha ⟨o, ho⟩
      · nofun
      · exact hbefore j c sw phase hc

/-- What others do to a disposable database. -/
theorem bystander_based (hs : Catalog cfg s) (leaves : s.leaves a = true)
    (h : (if s.ownerAlive && s.asksOwner cfg a then s.refuse a else Template.step cfg.plan s.base a) = some base)
    {i : Nat} {m : Made χ} (found : s.made[i]? = some m) : Template.Bystander s.base base m.name.value := by
  split at h
  · obtain ⟨_, _, _, _, _, _, _, _, _, hserver, _⟩ := refuse_eq_some h
    exact .same (by rw [hserver])
  · refine Template.bystander hs.safe.recorded h (hs.stored i m found).bystander fun ha htarget => ?_
    subst ha
    rw [State.leaves, htarget] at leaves
    exact bne_iff_ne.mp (List.all_eq_true.mp leaves m (List.mem_of_getElem? found)) rfl

theorem Stored.based (hs : Catalog cfg s) (leaves : s.leaves a = true)
    (h : (if s.ownerAlive && s.asksOwner cfg a then s.refuse a else Template.step cfg.plan s.base a) = some base)
    {i : Nat} {m : Made χ} (found : s.made[i]? = some m) : Stored cfg { s with base } m := by
  have hm := hs.stored i m found
  obtain ⟨⟨actor, htransition⟩, _⟩ := based_transition hs.safe.tidy h
  have hlisted : ∀ i c sw phase, base.Sweeps i c sw phase → ∀ record ∈ phase.ahead, record.name = m.name.value →
      Own cfg record.comment := by
    intro j d sw phase hd record hrecord hname
    obtain rfl | ⟨c, before, hc, hturn⟩ | ⟨c, hc⟩ := Template.sweeps_cases htransition hd
    · cases hrecord
    · by_cases hlisting : before = .listing
      · subst hlisting
        generalize base.server = server at hturn
        cases hturn with
        | listed =>
          obtain ⟨entry, hentry, rfl⟩ := List.mem_map.mp hrecord
          refine hm.own entry.2 ?_
          rw [← hname]
          exact AList.mem_lookup_iff.mpr hentry
        | listFailed => cases hrecord
      · exact hm.listed _ _ _ _ hc record ((hturn.onward hlisting).ahead.subset hrecord) hname
    · exact hm.listed _ _ _ _ hc record hrecord hname
  cases bystander_based hs leaves h found with
  | same hsame =>
    refine ⟨hm.named, ?_, hlisted, ?_, hm.clean, ?_, ?_⟩
    all_goals rw [show ({ s with base } : State χ).base.server.find m.name.value = _ from hsame]
    · exact hm.own
    · exact hm.content
    · exact hm.absent
    · exact hm.present
  | clients hbefore hafter =>
    have hfind : ({ s with base } : State χ).base.server.find m.name.value = _ := hafter
    refine ⟨hm.named, fun db hdb => ?_, hlisted, fun hsupplied db hdb => ?_, hm.clean, fun hp => ?_, fun halive hsure => ?_⟩
    · cases hfind.symm.trans hdb
      have hown := hm.own _ hbefore
      exact hown
    · cases hfind.symm.trans hdb
      have hcontent := hm.content hsupplied _ hbefore
      exact hcontent
    · cases hbefore.symm.trans (hm.absent hp)
    · obtain ⟨db, now, hdb, hcomment⟩ := hm.present halive hsure
      cases hbefore.symm.trans hdb
      exact ⟨_, now, hfind, hcomment⟩
  | swept hc hconnected hdropped hafter =>
    have hfind : ({ s with base } : State χ).base.server.find m.name.value = _ := hafter
    refine ⟨hm.named, fun db hdb => ?_, hlisted, fun _ db hdb => ?_, hm.clean, fun _ => hfind, fun halive _ => ?_⟩
    · cases hfind.symm.trans hdb
    · cases hfind.symm.trans hdb
    · cases hm.key_of_dropping hs.safe.recorded hc hdropped
      exact absurd rfl (hs.barred halive _ _ _ _ hc)

end Others

/-! ### Runs -/

section Runs
variable {cfg : Config χ} {s t : State χ} {i : Nat} {m : Made χ}

theorem catalog_initial {base : Template.State χ} (h : Template.Initial cfg.plan base) : Catalog cfg (.initial cfg base) where
  safe := Template.safe_initial h
  apart i j m m' hm := by cases hm
  barred _ i c sw phase hc := by
    have hclient := hc.client
    rw [show (State.initial cfg base).base.clients = _ from h.clients] at hclient
    cases hclient
  stored i m hm := by cases hm

theorem build_concat (changes : List (χ → χ)) (change : χ → χ) (content : χ) :
    Template.build (changes ++ [change]) content = change (Template.build changes content) :=
  List.foldl_append

/-- A holder changes what its database holds. -/
theorem Catalog.used (hs : Catalog cfg s) {db : Database χ} {change : χ → χ} (found : s.made[i]? = some m)
    (hdb : s.base.server.find m.name.value = some db) :
    Catalog cfg { s with
      base := { s.base with server := s.base.server.put m.name.value { db with content := change db.content } }
      made := s.made.set i { m with changes := m.changes ++ [change] } } := by
  have hm := hs.stored i m found
  have hfind : ∀ name, (s.base.server.put m.name.value { db with content := change db.content }).find name =
      if name = m.name.value then some { db with content := change db.content } else s.base.server.find name :=
    fun name => Server.find_put _ _ _
  have hmine := (hfind m.name.value).trans (if_pos rfl)
  have hthere : ¬ (m.place = .unmade ∨ m.place = .gone) := fun hp => by cases hdb.symm.trans (hm.absent hp)
  refine ⟨Template.safe_content hs.safe hm.bystander hdb _, fun j k e e' he he' hname => ?_,
    fun halive j c sw phase hc => hs.barred halive j c sw phase ⟨hc.client, hc.program⟩, fun j e he => ?_⟩
  · obtain ⟨x, hx, hxn⟩ := Ledger.kept_of_set Made.name found (by rfl) he
    obtain ⟨y, hy, hyn⟩ := Ledger.kept_of_set Made.name found (by rfl) he'
    exact hs.apart j k x y hx hy (by rw [← hxn, ← hyn, hname])
  · have hsweeps : ∀ {k c sw phase}, Template.State.Sweeps { s.base with
        server := s.base.server.put m.name.value { db with content := change db.content } } k c sw phase →
        s.base.Sweeps k c sw phase := fun hc => ⟨hc.client, hc.program⟩
    obtain ⟨rfl, rfl⟩ | ⟨hji, he⟩ := Ledger.getElem?_set_cases he
    · refine ⟨hm.named, fun db' hdb' => ?_, fun k c sw phase hc => hm.listed k c sw phase (hsweeps hc),
        fun hsupplied db' hdb' => ?_, fun hu => absurd (Or.inl hu) hthere, fun hp => absurd hp hthere, fun halive hsure => ?_⟩
      · cases hmine.symm.trans hdb'
        have hown := hm.own db hdb
        exact hown
      · cases hmine.symm.trans hdb'
        rw [build_concat, ← hm.content hsupplied db hdb]
      · obtain ⟨db', now, hdb', hcomment⟩ := hm.present halive hsure
        cases hdb.symm.trans hdb'
        exact ⟨_, now, hmine, hcomment⟩
    · have h := hs.stored j e he
      have hother := (hfind e.name.value).trans (if_neg fun heq => hji (hs.apart j i e m he found heq))
      refine ⟨h.named, ?_, fun k c sw phase hc => h.listed k c sw phase (hsweeps hc), ?_, h.clean, ?_, ?_⟩
      all_goals rw [show Server.find (State.base { s with
        base := { s.base with server := s.base.server.put m.name.value { db with content := change db.content } }
        made := s.made.set i { m with changes := m.changes ++ [change] } }).server e.name.value = _ from hother]
      · exact h.own
      · exact h.content
      · exact h.absent
      · exact h.present

/-- A creation's result is handed on, and the database with it to `p`. -/
theorem Catalog.handedOn (hs : Catalog cfg s) {result : Attempted} {p : Place} (found : s.made[i]? = some m)
    (hplace : m.place = resultPlace result) (unmade : p ≠ .unmade) (gone : p ≠ .gone) {control : Admission.State} :
    Catalog cfg { s with control, made := s.made.set i { m with place := if result.isOk then p else m.place } } := by
  refine hs.moved rfl rfl found rfl rfl rfl rfl rfl (fun h => ?_) (fun h => ?_) fun h => ?_
  all_goals cases result with
    | ok _ => first | exact absurd h unmade | exact absurd h gone | exact hplace ▸ rfl
    | error _ => first | exact h | exact Or.inr h

theorem catalog_step (hb : Books s) (hs : Catalog cfg s) {a : Action χ} (h : Transition cfg s a t) : Catalog cfg t := by
  cases h with
  | asked kind uuid source fresh => exact hs.concat rfl rfl rfl fresh
  | refilling w job uuid source worker operation fresh => exact hs.concat rfl rfl rfl fresh
  | opened i c m creation stage made next place gate =>
    have hplace : m.place = .unmade := (hb.book i c m creation made).staged.place _ (stage ▸ rfl)
    refine hs.moved rfl rfl made rfl rfl rfl rfl rfl (fun _ => hplace) (fun _ => Or.inl hplace) fun h => ?_
    obtain ⟨_, rfl⟩ | ⟨_, rfl⟩ := gate <;> cases h
  | stated i c m attempt stmt now result effect base creation stage made statement performed =>
    have hplace := (hb.book i c m creation made).staged.place (attemptPlace attempt) (stage ▸ rfl)
    cases attempt with
    | creating =>
      cases statement
      exact hs.stated made performed rfl rfl rfl rfl rfl rfl rfl
        ((hs.stored i m made).created hs.safe hplace performed rfl)
    | tagging =>
      cases statement
      refine hs.stated made performed rfl rfl ?_ rfl rfl rfl rfl ((hs.stored i m made).commented performed rfl)
      rw [Template.writesRecord, Template.templateRecord, parse_metadata]
    | compensating cause =>
      cases statement
      have hafter : ∀ p, attemptPlace ((Attempt.compensating cause).answer result) = p →
          p = .gone ∧ result = .ok () ∨ p = .doubtful := by
        intro p hp
        cases result with
        | ok _ => exact Or.inl ⟨hp.symm, rfl⟩
        | error _ => exact Or.inr hp.symm
      refine hs.stated made performed rfl rfl rfl rfl rfl rfl rfl fun listed =>
        (hs.stored i m made).dropped performed rfl listed rfl rfl rfl rfl (fun hp => ?_) ?_ fun hp => ?_
      · obtain ⟨h, _⟩ | h := hafter _ hp <;> cases h
      · obtain ⟨h, _⟩ | h := hafter _ rfl <;> exact congrArg Place.sure h
      · obtain ⟨_, h⟩ | h := hafter _ hp
        · exact h
        · cases h
    | _ => cases statement
  | judged | permitDropped | queued | checkedOut | spared | closed => exact hs.still rfl id rfl
  | delivered i c m result creation stage made =>
    have hplace : m.place = resultPlace result := (hb.book i c m creation made).staged.place _ (stage ▸ rfl)
    exact hs.handedOn (p := .held) made hplace (fun h => by cases h) fun h => by cases h
  | submitted i m kind completion permit admission queue made held =>
    exact hs.moved rfl rfl made rfl rfl rfl rfl rfl (fun h => by cases h) (fun h => by cases h) fun h => by cases h
  | dropped w i job o next m result effect base worker operation made owner answered performed =>
    have hafter : ∀ p, (if result.isOk then .gone else m.place) = p →
        p = .gone ∧ result = .ok () ∨ p = .given ∨ p = .unpublished := by
      intro p hp
      cases result with
      | ok _ => exact Or.inl ⟨hp.symm, rfl⟩
      | error _ => exact Or.inr (owner.imp (fun h => hp.symm.trans h.2.1) fun h => hp.symm.trans h.2.1)
    refine hs.stated made performed rfl rfl rfl rfl rfl rfl rfl fun listed =>
      (hs.stored i m made).dropped performed rfl listed rfl rfl rfl rfl (fun hp => ?_) ?_ fun hp => ?_
    · obtain ⟨h, _⟩ | h | h := hafter _ hp <;> cases h
    · obtain ⟨h, _⟩ | h | h := hafter _ rfl <;> exact congrArg Place.sure h
    · obtain ⟨_, h⟩ | h | h := hafter _ hp
      · exact h
      · cases h
      · cases h
  | refilled w i c m result operation creation stage made =>
    have hplace : m.place = resultPlace result := (hb.book i c m creation made).staged.place _ (stage ▸ rfl)
    exact hs.handedOn (p := .refilled) made hplace (fun h => by cases h) fun h => by cases h
  | published w i job m accepted worker operation made place refills =>
    refine hs.moved rfl rfl made rfl rfl rfl rfl rfl (fun h => ?_) (fun h => ?_) fun _ => place ▸ rfl
    all_goals cases accepted <;> cases h
  | used i m db change made found => exact hs.used made found
  | based a base leaves stepped =>
    have hbased := based_transition hs.safe.tidy stepped
    obtain ⟨⟨actor, htransition⟩, htidy⟩ := hbased
    exact ⟨Template.safe_transition hs.safe htransition htidy, hs.apart,
      fun halive j c sw phase hc => barred_based hs halive stepped hc, fun j e he => .based hs leaves stepped he⟩
  | ownerLost => exact hs.still rfl (fun h => by cases h) rfl

theorem catalog (hs : (machine cfg).Reachable s) : Catalog cfg s := by
  induction hs with
  | start h =>
    obtain ⟨base, hbase, rfl⟩ := h
    exact catalog_initial hbase
  | next a hs hstep ih => exact catalog_step (books hs) ih (step_transition hstep)

end Runs

end PostgresTestHarness.Disposable
