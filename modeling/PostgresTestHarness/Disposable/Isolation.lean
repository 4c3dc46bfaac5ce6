import PostgresTestHarness.Disposable.Catalog

/-! What a holder of a disposable database has.

A database goes one way (`Place.Next`), so one that is held has been held since it was handed out. While the
owner lives nothing but its holder's own changes befalls it (`held_step`). -/
namespace PostgresTestHarness.Disposable
open Postgres Admission

variable {χ : Type} {cfg : Config χ} {s t : State χ} {i : Nat} {m : Made χ} {a : Action χ}

/-- Where a database can go in one step. -/
inductive Place.Next : Place → Place → Prop where
  | stay (p : Place) : Next p p
  | doubted : Next .unmade .doubtful
  | rejected : Next .unmade .gone
  | tagged : Next .doubtful .tagged
  | compensated : Next .doubtful .gone
  | delivered : Next .tagged .held
  | refilled : Next .tagged .refilled
  | published : Next .refilled .held
  | unpublished : Next .refilled .unpublished
  | deleted : Next .unpublished .gone
  | submitted : Next .held .given
  | dropped : Next .given .gone

/-- The changes that an action makes to the content of a database. -/
def uses (i : Nat) : Action χ → List (χ → χ)
  | .use j change => if j = i then [change] else []
  | _ => []

/-- What one step leaves of a database. -/
structure Follows (i : Nat) (a : Action χ) (m m' : Made χ) : Prop where
  name : m'.name = m.name
  source : m'.source = m.source
  changes : m'.changes = m.changes ++ uses i a
  place : m.place.Next m'.place
  givenTo : m'.givenTo = m.givenTo ∨ m.place = .held ∧ m'.place = .given

theorem Follows.refl (m : Made χ) (h : uses i a = []) : Follows i a m m :=
  ⟨rfl, rfl, by rw [h, List.append_nil], .stay _, Or.inl rfl⟩

theorem follows_set {j : Nat} {e e' : Made χ} (he : s.made[j]? = some e) (found : s.made[i]? = some m)
    (follows : Follows j a e e') (others : j ≠ i → uses i a = []) :
    ∃ m', (s.made.set j e')[i]? = some m' ∧ Follows i a m m' := by
  by_cases hji : j = i
  · subst hji
    cases he.symm.trans found
    exact ⟨e', Ledger.getElem?_set_of_some found, follows⟩
  · exact ⟨m, (List.getElem?_set_ne hji).trans found, .refl m (others hji)⟩

theorem next_answer (attempt : Attempt) (result : Except Error Unit) :
    (attemptPlace attempt).Next (attemptPlace (attempt.answer result)) := by
  cases attempt with
  | creating =>
    cases result with
    | ok _ => exact .doubted
    | error error =>
      rw [Attempt.answer, classifyDatabaseCreationFailure.eq_def]
      split
      · exact .rejected
      · exact .doubted
  | tagging =>
    cases result with
    | ok _ => exact .tagged
    | error _ => exact .stay _
  | compensating cause =>
    cases result with
    | ok _ => exact .compensated
    | error _ => exact .stay _
  | _ => exact .stay _

theorem next_handedOn {p : Place} {result : Attempted} (h : m.place = resultPlace result) (hp : Place.Next .tagged p) :
    m.place.Next (if result.isOk then p else m.place) := by
  cases result with
  | ok _ => exact h.symm ▸ hp
  | error _ => exact .stay _

/-- A database goes on as its creation, its holder or its job has it. -/
theorem follows_step (hb : Books s) (h : Transition cfg s a t) (found : s.made[i]? = some m) :
    ∃ m', t.made[i]? = some m' ∧ Follows i a m m' := by
  have hset : ∀ {j : Nat} {e e' : Made χ}, s.made[j]? = some e → (∀ k, uses k a = []) → e'.name = e.name →
      e'.source = e.source → e'.changes = e.changes → e'.givenTo = e.givenTo ∨ e.place = .held ∧ e'.place = .given →
      e.place.Next e'.place → ∃ m', (s.made.set j e')[i]? = some m' ∧ Follows i a m m' := by
    intro j e e' he hnone name source changes givenTo place
    exact follows_set he found ⟨name, source, by rw [hnone, List.append_nil, changes], place, givenTo⟩ fun _ => hnone i
  cases h with
  | asked | refilling => exact ⟨m, Ledger.getElem?_concat_of_some found, .refl m rfl⟩
  | opened j c e creation stage made next place gate =>
    have hplace : e.place = .unmade := (hb.book j c e creation made).staged.place _ (stage ▸ rfl)
    refine hset made (fun _ => rfl) rfl rfl rfl (Or.inl rfl) ?_
    obtain ⟨_, rfl⟩ | ⟨_, rfl⟩ := gate
    · exact hplace ▸ .stay _
    · exact hplace ▸ .rejected
  | stated j c e attempt stmt now result effect base creation stage made =>
    have hplace := (hb.book j c e creation made).staged.place (attemptPlace attempt) (stage ▸ rfl)
    exact hset made (fun _ => rfl) rfl rfl rfl (Or.inl rfl) (hplace ▸ next_answer attempt result)
  | judged | permitDropped | queued | checkedOut | spared | closed | based | ownerLost => exact ⟨m, found, .refl m rfl⟩
  | delivered j c e result creation stage made =>
    have hplace : e.place = resultPlace result := (hb.book j c e creation made).staged.place _ (stage ▸ rfl)
    exact hset made (fun _ => rfl) rfl rfl rfl (Or.inl rfl) (next_handedOn hplace .delivered)
  | submitted j e kind completion permit admission queue made held =>
    exact hset made (fun _ => rfl) rfl rfl rfl (Or.inr ⟨held, rfl⟩) (held ▸ .submitted)
  | dropped w j job o next e result effect base worker operation made owner =>
    refine hset made (fun _ => rfl) rfl rfl rfl (Or.inl rfl) ?_
    cases result with
    | ok _ =>
      obtain ⟨_, hplace, _⟩ | ⟨_, hplace, _⟩ := owner
      · exact hplace.symm ▸ .dropped
      · exact hplace.symm ▸ .deleted
    | error _ => exact .stay _
  | refilled w j c e result operation creation stage made =>
    have hplace : e.place = resultPlace result := (hb.book j c e creation made).staged.place _ (stage ▸ rfl)
    exact hset made (fun _ => rfl) rfl rfl rfl (Or.inl rfl) (next_handedOn hplace .refilled)
  | published w j job e accepted worker operation made place =>
    refine hset made (fun _ => rfl) rfl rfl rfl (Or.inl rfl) ?_
    cases accepted
    · exact place.symm ▸ .unpublished
    · exact place.symm ▸ .published
  | used j e db change made =>
    refine follows_set made found ⟨rfl, rfl, ?_, .stay _, Or.inl rfl⟩ fun hji => if_neg hji
    rw [uses, if_pos rfl]

/-- A step of others, while the owner lives, leaves a held database its number and its content, and a change
of its own is made to it. -/
theorem held_step (hb : Books s) (hs : Catalog cfg s) (h : Transition cfg s a t) (found : s.made[i]? = some m)
    (held : m.place = .held) (alive : s.ownerAlive = true) {db : Database χ}
    (hdb : s.base.server.find m.name.value = some db) :
    ∃ db', t.base.server.find m.name.value = some db' ∧ db'.oid = db.oid ∧
      db'.content = Template.build (uses i a) db.content := by
  have hsame : t.base.server.find m.name.value = s.base.server.find m.name.value → uses i a = [] →
      ∃ db', t.base.server.find m.name.value = some db' ∧ db'.oid = db.oid ∧
        db'.content = Template.build (uses i a) db.content := by
    intro hfind hnone
    exact ⟨db, hfind.trans hdb, rfl, by rw [hnone]; rfl⟩
  -- a statement of the harness is on a database that nobody holds
  have hstatement : ∀ {j : Nat} {e : Made χ} {stmt : Statement Unit} {executed : Bool} {base : Template.State χ},
      s.made[j]? = some e → e.place ≠ .held → stmt.target = some e.name.value →
      s.perform stmt executed = some { s with base } → base.server.find m.name.value = s.base.server.find m.name.value := by
    intro j e stmt executed base he hplace htarget hperformed
    obtain ⟨_, rfl⟩ | ⟨_, _, hrun⟩ := perform_cases hperformed
    · rfl
    · refine Server.execute_find hrun fun heq => hplace ?_
      cases hs.apart i j m e found he (Option.some.inj (heq.symm.trans htarget))
      cases found.symm.trans he
      exact held
  cases h with
  | stated j c e attempt stmt now result effect base creation stage made statement performed =>
    have hplace := (hb.book j c e creation made).staged.place (attemptPlace attempt) (stage ▸ rfl)
    refine hsame (hstatement made ?_ ?_ performed) rfl
    · cases attempt with
      | creating | tagging | compensating => exact hplace ▸ nofun
      | _ => cases statement
    · cases attempt <;> cases statement <;> rfl
  | dropped w j job o next e result effect base worker operation made owner answered performed =>
    refine hsame (hstatement made ?_ rfl performed) rfl
    obtain ⟨_, hplace, _⟩ | ⟨_, hplace, _⟩ := owner <;> exact hplace ▸ nofun
  | used j e db' change made hfound =>
    by_cases hji : j = i
    · subst hji
      cases found.symm.trans made
      cases hdb.symm.trans hfound
      refine ⟨_, (Server.find_put _ _ _).trans (if_pos rfl), rfl, ?_⟩
      rw [uses, if_pos rfl]
      rfl
    · refine hsame ((Server.find_put _ _ _).trans (if_neg fun heq => hji ?_)) (if_neg hji)
      exact hs.apart j i e m made found heq.symm
  | based b base leaves stepped =>
    cases bystander_based hs leaves stepped found with
    | same hfind => exact hsame hfind rfl
    | clients hbefore hafter =>
      cases hbefore.symm.trans hdb
      exact ⟨_, hafter, rfl, rfl⟩
    | swept hc hconnected hdropped =>
      cases (hs.stored i m found).key_of_dropping hs.safe.recorded hc hdropped
      exact absurd rfl (hs.barred alive _ _ _ _ hc)
  | _ => exact hsame rfl rfl

/-! ### Runs -/

/-- A database that was given up is not handed out again. -/
theorem given_up_run (hs : (machine cfg).Reachable s) (found : s.made[i]? = some m)
    (givenUp : m.place = .given ∨ m.place = .gone) {actions : List (Action χ)}
    (h : (machine cfg).run s actions = some t) :
    ∃ m', t.made[i]? = some m' ∧ m'.name = m.name ∧ (m'.place = .given ∨ m'.place = .gone) := by
  refine Machine.Reachable.run_related (m := machine cfg) (R := fun _ t => ∃ m', t.made[i]? = some m' ∧ m'.name = m.name ∧
    (m'.place = .given ∨ m'.place = .gone)) hs ⟨m, found, rfl, givenUp⟩ (fun u a v hu ih hstep => ?_) h
  obtain ⟨e, he, hname, hplace⟩ := ih
  obtain ⟨e', he', hfollows⟩ := follows_step (books hu) (step_transition hstep) he
  refine ⟨e', he', hfollows.name.trans hname, ?_⟩
  have hnext := hfollows.place
  obtain hplace | hplace := hplace <;> rw [hplace] at hnext <;> generalize e'.place = p at hnext <;> cases hnext
  · exact Or.inl rfl
  · exact Or.inr rfl
  · exact Or.inr rfl

/-- The owner does not come back. -/
theorem owner_step (h : Transition cfg s a t) (alive : t.ownerAlive = true) : s.ownerAlive = true := by
  cases h with
  | ownerLost => cases alive
  | _ => exact alive

theorem owner_run {actions : List (Action χ)} (h : (machine cfg).run s actions = some t) (alive : t.ownerAlive = true) :
    s.ownerAlive = true := by
  induction actions generalizing s with
  | nil =>
    cases h
    exact alive
  | cons a rest ih =>
    obtain ⟨u, hu, hrest⟩ := Option.bind_eq_some_iff.mp h
    exact owner_step (step_transition hu) (ih hrest)

/-- While it is held and the owner lives, a database is the same, and holds what its own changes make of it. -/
theorem held_run (hs : (machine cfg).Reachable s) (found : s.made[i]? = some m) (held : m.place = .held)
    {actions : List (Action χ)} (h : (machine cfg).run s actions = some t) :
    ∃ m', t.made[i]? = some m' ∧ m'.name = m.name ∧ (m'.place = .given ∨ m'.place = .gone ∨ m'.place = .held ∧
      (t.ownerAlive = true → ∀ db, s.base.server.find m.name.value = some db → ∃ db',
        t.base.server.find m.name.value = some db' ∧ db'.oid = db.oid ∧
          db'.content = Template.build (actions.flatMap (uses i)) db.content)) := by
  induction actions generalizing s m with
  | nil =>
    cases h
    exact ⟨m, found, rfl, Or.inr (Or.inr ⟨held, fun _ db hdb => ⟨db, hdb, rfl, rfl⟩⟩)⟩
  | cons a rest ih =>
    obtain ⟨u, hu, hrest⟩ := Option.bind_eq_some_iff.mp h
    have htransition := step_transition hu
    have hreachable := hs.next a hu
    obtain ⟨e, he, hfollows⟩ := follows_step (books hs) htransition found
    have hnext := hfollows.place
    have hplace : e.place = .held ∨ e.place = .given := by
      rw [held] at hnext
      generalize e.place = p at hnext
      cases hnext
      · exact Or.inl rfl
      · exact Or.inr rfl
    obtain hplace | hplace := hplace
    · obtain ⟨m', hm', hname, hcases⟩ := ih hreachable he hplace hrest
      refine ⟨m', hm', hname.trans hfollows.name, hcases.imp_right (Or.imp_right fun ⟨hheld, hkept⟩ => ⟨hheld, ?_⟩)⟩
      intro halive db hdb
      have hbefore := owner_step htransition (owner_run hrest halive)
      obtain ⟨x, hx, hxoid, hxcontent⟩ := held_step (books hs) (catalog hs) htransition found held hbefore hdb
      rw [hfollows.name] at hkept
      obtain ⟨y, hy, hyoid, hycontent⟩ := hkept halive x hx
      refine ⟨y, hy, hyoid.trans hxoid, ?_⟩
      rw [hycontent, hxcontent, List.flatMap_cons, Template.build, Template.build, Template.build, List.foldl_append]
    · obtain ⟨m', hm', hname, hcases⟩ := given_up_run hreachable he (Or.inl hplace) hrest
      exact ⟨m', hm', hname.trans hfollows.name, hcases.imp_right Or.inl⟩

/-- A database that a lease or a pool has is there as long as the owner lives, with the record of a disposable
database of this harness; its name is no other disposable database's, and no template's; and where its source was
retained when it was copied, it holds what its own holder has made of that source. In every run it goes from its
holder to a cleanup job, and until then it is the same database, and nothing but its own changes is made to it. -/
theorem held_database_isolated (hs : (machine cfg).Reachable s) (found : s.made[i]? = some m) (held : m.place = .held)
    (alive : s.ownerAlive = true) :
    ∃ db now, s.base.server.find m.name.value = some db ∧
      db.comment.bind ResourceMetadata.parse = some (.test cfg.project cfg.ownerKey now) ∧
      (m.supplied = true → db.content = Template.build m.changes (m.source.content cfg.plan)) ∧
      (∀ (j : Nat) e, s.made[j]? = some e → e.name.value = m.name.value → j = i) ∧
      (∀ n ∈ cfg.plan.nodes, m.name.value ≠ (cfg.plan.request n).name.value) ∧
      ∀ actions t, (machine cfg).run s actions = some t → ∃ m', t.made[i]? = some m' ∧ m'.name = m.name ∧
        (m'.place = .given ∨ m'.place = .gone ∨ m'.place = .held ∧ (t.ownerAlive = true → ∃ db',
          t.base.server.find m.name.value = some db' ∧ db'.oid = db.oid ∧
            db'.content = Template.build (actions.flatMap (uses i)) db.content)) := by
  have hcatalog := catalog hs
  have hstored := hcatalog.stored i m found
  obtain ⟨db, now, hdb, hcomment⟩ := hstored.present alive (held ▸ rfl)
  refine ⟨db, now, hdb, ?_, fun hsupplied => hstored.content hsupplied db hdb, fun j e he hname =>
    hcatalog.apart j i e m he found hname, hstored.bystander.nodes, fun actions t h => ?_⟩
  · rw [hcomment, Option.bind_some, parse_metadata]
  · obtain ⟨m', hm', hname, hcases⟩ := held_run hs found held h
    exact ⟨m', hm', hname, hcases.imp_right (Or.imp_right fun ⟨hheld, hkept⟩ => ⟨hheld, fun halive => hkept halive db hdb⟩)⟩

section Example

def sampleConfig : Config Nat := ⟨Template.samplePlan, ⟨1, 1⟩, Template.sampleProject, 7⟩

def sampleUuid : SimpleUuid := ⟨"0123456789abcdef0123456789abcdef".toList, by decide⟩

/-- A copy of the root is handed to a lease. -/
def lend : List (Action Nat) :=
  Template.buildRoot.map .base ++ [.create .lease sampleUuid (.template Template.rootNode 0), .ensureOpen 0,
    .statement 0 300 (.ok ()) true, .statement 0 300 (.ok ()) true, .judge 0, .deliver 0]

theorem nanos_zero : 0 < 10 ^ 9 := by decide

/-- A sweep with no minimum age, far in the future: everything listed is stale. -/
def sampleSweep : StaleCleanup.Sweep := ⟨Template.sampleProject, ⟨0, 0, nanos_zero⟩, 900⟩

/-- The sweep, and a change by the lease. -/
def sweepAndUse : List (Action Nat) :=
  .base (.startSweep sampleSweep) :: List.replicate 7 (.base (.advance 1 .ok)) ++
    [.use 0 fun content => content + 5]

/-- The copy holds 20, and 25 when the sweep is over. -/
theorem held_database_isolated_swept : ∃ s t : State Nat, (machine sampleConfig).Reachable s ∧
    (machine sampleConfig).run s sweepAndUse = some t ∧ ∃ db db',
      s.base.server.find (DatabaseName.test Template.sampleProject sampleUuid).value = some db ∧ db.content = 20 ∧
      t.base.server.find (DatabaseName.test Template.sampleProject sampleUuid).value = some db' ∧ db'.oid = db.oid ∧
      db'.content = 25 := by
  have hrun : ((machine sampleConfig).run (.initial sampleConfig Template.start) lend).any (fun s =>
      s.ownerAlive && s.made[0]?.any (fun m => m.place == .held && m.supplied && m.changes.isEmpty &&
        m.source == .template Template.rootNode 0 && m.name == .test Template.sampleProject sampleUuid) &&
        ((machine sampleConfig).run s sweepAndUse).any fun t =>
          t.ownerAlive && t.made[0]?.any fun m => m.place == .held) = true := by
    decide +kernel
  obtain ⟨s, hs, hboth⟩ := (Option.any_eq_true _ _).mp hrun
  simp only [Bool.and_eq_true] at hboth
  obtain ⟨⟨halive, hmade⟩, hafter⟩ := hboth
  obtain ⟨m, hm, hfacts⟩ := (Option.any_eq_true _ _).mp hmade
  simp only [Bool.and_eq_true, beq_iff_eq, List.isEmpty_iff] at hfacts
  obtain ⟨⟨⟨⟨hheld, hsupplied⟩, hchanges⟩, hsource⟩, hname⟩ := hfacts
  obtain ⟨t, ht, hlater⟩ := (Option.any_eq_true _ _).mp hafter
  obtain ⟨halive', hmade'⟩ := Bool.and_eq_true_iff.mp hlater
  obtain ⟨m', hm', hheld'⟩ := (Option.any_eq_true _ _).mp hmade'
  have hreachable := Machine.reachable_of_run (m := machine sampleConfig) _ ⟨_, Template.start_initial, rfl⟩ hs
  obtain ⟨db, _, hdb, _, hcontent, _, _, hkept⟩ := held_database_isolated hreachable hm hheld halive
  obtain ⟨e, he, _, hcases⟩ := hkept sweepAndUse t ht
  cases hm'.symm.trans he
  rw [beq_iff_eq.mp hheld'] at hcases
  obtain ⟨db', hdb', hoid, hcontent'⟩ := ((hcases.resolve_left nofun).resolve_left nofun).2 halive'
  have htwenty : db.content = 20 := by
    rw [hcontent hsupplied, hchanges, hsource]
    rfl
  refine ⟨s, t, hreachable, ht, db, db', hname ▸ hdb, htwenty, hname ▸ hdb', hoid, ?_⟩
  rw [hcontent', htwenty]
  rfl

end Example

end PostgresTestHarness.Disposable
