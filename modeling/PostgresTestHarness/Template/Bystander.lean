import PostgresTestHarness.Template.Retained

/-! Databases that are no templates, beside the protocol.

What is known of templates (`Safe`) survives a step, also one that changes the content of a database
that is no template. Of such a database a step changes who is connected, unless it is somebody else's
own statement, or the drop of a sweep that has read the database's record (`Bystander`). -/
namespace PostgresTestHarness.Template
open SessionLock Postgres

variable {χ : Type} {plan : Plan χ} {s t : State χ} {name : Text}

/-- The name of no template, and not `template0`. -/
structure Apart (plan : Plan χ) (name : Text) : Prop where
  template0 : name ≠ "template0".toList
  nodes : ∀ n ∈ plan.nodes, name ≠ (plan.request n).name.value

/-- The name of a test database is not a template's. -/
theorem apart_test (plan : Plan χ) (project : ProjectName) (uuid : SimpleUuid) :
    Apart plan (DatabaseName.test project uuid).value := by
  refine ⟨managed_ne_template0, fun n _ heq => ?_⟩
  have hkind := (DatabaseName.managed_inj uuid.valid (DatabaseName.valid_shortHex _) heq).2
  cases hkind

/-- What is known of the templates in every reachable state. -/
structure Safe (plan : Plan χ) (s : State χ) : Prop where
  tidy : Tidy plan s
  recorded : Recorded plan s
  sound : Sound plan s

theorem safe_initial (h : Initial plan s) : Safe plan s := ⟨tidy_initial h, recorded_initial h, sound_initial h⟩

theorem safe_transition (hs : Safe plan s) {actor : Option Nat} (h : Transition plan s t actor) (tidy : Tidy plan t) :
    Safe plan t := by
  refine ⟨tidy, recorded_step hs.recorded h, fun n hn db hdb htagged => sealed_step hs.sound hs.recorded h hn hdb htagged,
    fun i c n handle now phase hc hconnected => facts_step hs.tidy hs.recorded hs.sound h hc hconnected, ?_⟩
  obtain ⟨db, hdb, hcontent, hclients, hclosed⟩ := hs.sound.template0
  exact ⟨db, template0_step hs.recorded h hdb hclients hclosed, hcontent, hclients, hclosed⟩

theorem safe_step (hs : Safe plan s) {a : Action χ} (h : step plan s a = some t) : Safe plan t :=
  safe_transition hs (step_transition h) (tidy_step hs.tidy h)

/-- A change of what a database holds that is no template. -/
theorem safe_content (hs : Safe plan s) (hname : Apart plan name) {db : Database χ} (hdb : s.server.find name = some db)
    (content : χ) : Safe plan { s with server := s.server.put name { db with content } } := by
  have hother : ∀ other, other ≠ name → (s.server.put name { db with content }).find other = s.server.find other :=
    fun other hne => (Server.find_put _ _ _).trans (if_neg hne)
  have hnode : ∀ n ∈ plan.nodes, (s.server.put name { db with content }).find (plan.request n).name.value =
      s.server.find (plan.request n).name.value := fun n hn => hother _ (hname.nodes n hn).symm
  refine ⟨hs.tidy.of_locks rfl rfl, ⟨fun i c n handle now phase hc => ?_, fun n hn d hd => ?_,
    fun other d text hd hne htext => ?_, fun i c sw phase hc => ?_, fun i c sw phase hc => ?_⟩,
    ⟨fun n hn d hd => ?_, fun i c n handle now phase hc hconnected => ?_, ?_⟩⟩
  · exact hs.recorded.member i c n handle now phase ⟨hc.client, hc.program⟩
  · exact hs.recorded.own n hn d ((hnode n hn).symm.trans hd)
  · rw [show ({ s with server := s.server.put name { db with content } } : State χ).server.find other = _ from
      Server.find_put _ _ _] at hd
    split at hd
    · rename_i heq
      cases hd
      exact hs.recorded.foreign name db text hdb (heq ▸ hne) htext
    · exact hs.recorded.foreign other d text hd hne htext
  · exact hs.recorded.grounded i c sw phase ⟨hc.client, hc.program⟩
  · exact hs.recorded.read i c sw phase ⟨hc.client, hc.program⟩
  · exact hs.sound.isSealed n hn d ((hnode n hn).symm.trans hd)
  · have hc' : s.Attempts i c n handle now phase := ⟨hc.client, hc.program⟩
    rw [hnode n (hs.recorded.member _ _ _ _ _ _ hc')]
    exact hs.sound.facts i c n handle now phase hc' hconnected
  · obtain ⟨original, horiginal, hrest⟩ := hs.sound.template0
    exact ⟨original, (hother _ hname.template0.symm).trans horiginal, hrest⟩

/-- A live handle is on a template that holds what it has to. -/
theorem content_of_retains (hs : Safe plan s) {j : Nat} {n : Node} (h : s.retains j n = true) {db : Database χ}
    (hdb : s.server.find (plan.request n).name.value = some db) : db.content = plan.content n.lineage := by
  rw [State.retains] at h
  split at h
  · rename_i m handle now waiting hc
    cases beq_iff_eq.mp h
    obtain ⟨db', hdb', htagged⟩ := hs.sound.facts j _ _ _ _ _ ⟨hc, rfl⟩ rfl
    cases hdb.symm.trans hdb'
    exact (hs.sound.isSealed _ (hs.recorded.member j _ _ _ _ _ ⟨hc, rfl⟩) _ hdb htagged).built
  · cases h

/-- What a step does to a database that is no template, unless it is somebody's own statement. -/
inductive Bystander (s t : State χ) (name : Text) : Prop where
  | same : t.server.find name = s.server.find name → Bystander s t name
  | clients {db clients} : s.server.find name = some db → t.server.find name = some { db with clients } →
      Bystander s t name
  | swept {i c sw record key dropped rest report} : s.Sweeps i c sw (.dropping record key dropped rest report) →
      c.connected = true → dropped.value = name → t.server.find name = none → Bystander s t name

theorem bystander_session (hs : Recorded plan s) {i : Nat} (h : Transition plan s t (some i)) (hname : Apart plan name) :
    Bystander s t name := by
  cases h with
  | ticked _ hserver => exact .same (by rw [hserver])
  | returned _ _ _ hserver => exact .same (by rw [hserver])
  | lost _ hserver => exact .same (by rw [hserver]; rfl)
  | @turned _ c d node handle now phase after hc hturn =>
    rcases hturn.writes with hsame | ⟨_, _, hothers⟩
    · exact .same (hsame _)
    · exact .same (hothers _ (hname.nodes _ (hs.member _ _ _ _ _ _ hc)))
  | @swept _ c sw phase after hc hturn =>
    have hsame : t.server.databases = s.server.databases → Bystander s t name := fun hdatabases =>
      .same (by rw [Server.find, hdatabases, Server.find])
    have hdrop : ∀ {record key dropped rest report}, phase = .dropping record key dropped rest report →
        c.connected = true → t.server = s.server.dropDatabase i dropped.value → Bystander s t name := by
      intro record key dropped rest report hphase hconnected hserver
      subst hphase
      by_cases hdropped : name = dropped.value
      · exact .swept hc hconnected hdropped.symm (by rw [hserver, Server.find_drop, if_pos hdropped])
      · exact .same (by rw [hserver, Server.find_drop, if_neg hdropped])
    generalize hserver : t.server = server at hturn
    cases hturn with
    | dropped hconnected => exact hdrop rfl hconnected hserver
    | droppedUnseen hconnected => exact hdrop rfl hconnected hserver
    | lockFailed hdatabases => exact hsame (by rw [hserver, hdatabases])
    | unlockFailed hdatabases => exact hsame (by rw [hserver, hdatabases])
    | _ => exact hsame (by rw [hserver])
  | @wrote _ c node handle now done db change hc _ _ _ hserver =>
    refine .same ?_
    rw [hserver, Server.find_put, if_neg (hname.nodes _ (hs.member _ _ _ _ _ _ hc))]

theorem bystander_clients {other : Text} {db : Database χ} {clients : List Nat} (hdb : s.server.find other = some db)
    (hserver : t.server = s.server.put other { db with clients }) : Bystander s t name := by
  by_cases hother : name = other
  · subst hother
    exact .clients hdb (by rw [hserver, Server.find_put, if_pos rfl])
  · exact .same (by rw [hserver, Server.find_put, if_neg hother])

theorem bystander (hs : Recorded plan s) {a : Action χ} (h : step plan s a = some t) (hname : Apart plan name)
    (hother : ∀ {session : Nat} {α : Type} {stmt : Statement α}, a = .other session stmt → stmt.target ≠ some name) :
    Bystander s t name := by
  cases a with
  | begin node handle now =>
    obtain ⟨_, heq⟩ := Option.ite_none_right_eq_some.mp h
    cases heq
    exact .same rfl
  | startSweep sw =>
    cases h
    exact .same rfl
  | connect other client =>
    obtain ⟨db, hdb, h⟩ := Option.bind_eq_some_iff.mp h
    obtain ⟨_, heq⟩ := Option.ite_none_right_eq_some.mp h
    cases heq
    exact bystander_clients hdb rfl
  | disconnect other client =>
    obtain ⟨db, hdb, rfl⟩ := Option.map_eq_some_iff.mp h
    exact bystander_clients hdb rfl
  | other session stmt =>
    obtain ⟨_, h⟩ := Option.ite_none_right_eq_some.mp h
    obtain ⟨⟨server, answer⟩, hrun, rfl⟩ := Option.map_eq_some_iff.mp h
    exact .same (Server.execute_find hrun (hother rfl))
  | advance i | tick i | write i | initialized i | initializerFailed i | lose i =>
    exact bystander_session hs (step_transition h) hname

/-- A sweep that is not asked to go on stays where it is. -/
theorem sweep_stays {a : Action χ} (h : step plan s a = some t) {j : Nat} {d : Client Program} {sw : StaleCleanup.Sweep}
    {phase : StaleCleanup.Phase} (hd : t.Sweeps j d sw phase) (ha : ∀ o, a ≠ .advance j o) :
    phase = .listing ∨ ∃ c, s.Sweeps j c sw phase := by
  obtain ⟨hj, hprogram⟩ := hd
  -- the program that an action sets is an attempt's
  have hset : ∀ {i : Nat} {c : Client Program}, t.clients = s.clients.set i c →
      (i = j → ∀ sw phase, c.program ≠ .sweep sw phase) → ∃ c, s.Sweeps j c sw phase := by
    intro i c hclients hc
    rw [hclients] at hj
    obtain ⟨hji, rfl⟩ | ⟨_, hj⟩ := Ledger.getElem?_set_cases hj
    · exact absurd hprogram (hc hji.symm sw phase)
    · exact ⟨d, hj, hprogram⟩
  cases a with
  | begin node handle now =>
    obtain ⟨_, heq⟩ := Option.ite_none_right_eq_some.mp h
    cases heq
    obtain ⟨rfl, rfl⟩ | hj := Ledger.getElem?_concat_cases hj
    · cases hprogram
    · exact Or.inr ⟨d, hj, hprogram⟩
  | startSweep sw' =>
    cases h
    obtain ⟨rfl, rfl⟩ | hj := Ledger.getElem?_concat_cases hj
    · cases hprogram
      exact Or.inl rfl
    · exact Or.inr ⟨d, hj, hprogram⟩
  | advance i o =>
    obtain ⟨_, h⟩ := Option.ite_none_right_eq_some.mp h
    obtain ⟨_, _, _, _, _, _, hclients⟩ := System.advance_eq_some h
    exact Or.inr (hset hclients fun hij => absurd (by rw [hij]) (ha o))
  | tick i now =>
    obtain ⟨c, _, h⟩ := Option.bind_eq_some_iff.mp h
    split at h
    · cases h
      exact Or.inr (hset rfl fun _ => nofun)
    · cases h
  | write i =>
    obtain ⟨⟨c, node, handle, now, done⟩, _, h⟩ := Option.bind_eq_some_iff.mp h
    obtain ⟨db, _, h⟩ := Option.bind_eq_some_iff.mp h
    obtain ⟨change, _, h⟩ := Option.bind_eq_some_iff.mp h
    obtain ⟨_, heq⟩ := Option.ite_none_right_eq_some.mp h
    cases heq
    exact Or.inr (hset rfl fun _ => nofun)
  | initialized i =>
    obtain ⟨⟨c, node, handle, now, done⟩, _, h⟩ := Option.bind_eq_some_iff.mp h
    obtain ⟨_, heq⟩ := Option.ite_none_right_eq_some.mp h
    cases heq
    exact Or.inr (hset rfl fun _ => nofun)
  | initializerFailed i =>
    obtain ⟨⟨c, node, handle, now, done⟩, _, heq⟩ := Option.map_eq_some_iff.mp h
    cases heq
    exact Or.inr (hset rfl fun _ => nofun)
  | lose i =>
    obtain ⟨c, hc, _, hclients⟩ := System.lose_eq_some h
    rw [hclients] at hj
    obtain ⟨rfl, rfl⟩ | ⟨_, hj⟩ := Ledger.getElem?_set_cases hj
    · exact Or.inr ⟨c, hc, hprogram⟩
    · exact Or.inr ⟨d, hj, hprogram⟩
  | connect other client =>
    obtain ⟨db, _, h⟩ := Option.bind_eq_some_iff.mp h
    obtain ⟨_, heq⟩ := Option.ite_none_right_eq_some.mp h
    cases heq
    exact Or.inr ⟨d, hj, hprogram⟩
  | disconnect other client =>
    obtain ⟨db, _, rfl⟩ := Option.map_eq_some_iff.mp h
    exact Or.inr ⟨d, hj, hprogram⟩
  | other session stmt =>
    obtain ⟨_, h⟩ := Option.ite_none_right_eq_some.mp h
    obtain ⟨⟨server, answer⟩, _, rfl⟩ := Option.map_eq_some_iff.mp h
    exact Or.inr ⟨d, hj, hprogram⟩

end PostgresTestHarness.Template
