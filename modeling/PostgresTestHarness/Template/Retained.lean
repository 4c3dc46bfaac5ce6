import PostgresTestHarness.Template.Content

/-! What a shared lock retains.

An attempt that found its template ready under the shared lock, and kept the lock, keeps the
template: whoever drops, builds or tags it needs the lock exclusively, and nobody can connect
to it. -/
namespace PostgresTestHarness.Template
open SessionLock Postgres

variable {χ : Type} {plan : Plan χ} {s t : State χ} {i : Nat} {n : Node}

/-- Phases with the shared lock of a template that was found ready under it. -/
def Phase.verified : Phase → Bool
  | .retained | .unlockCoordination _ true => true
  | _ => false

theorem facts_verified {phase : Phase} {found : Option (Database χ)} (h : phase.verified = true)
    (hfacts : Facts plan n phase found) : ∃ db, found = some db ∧ Tagged plan n .ready db := by
  cases phase with
  | retained => exact hfacts
  | unlockCoordination check ready =>
    cases ready with
    | true => exact hfacts
    | false => cases h
  | _ => cases h

/-- The shared lock, and nothing of the template's exclusively. -/
theorem holds_verified {phase : Phase} (h : phase.verified = true) (hn : n ∈ plan.nodes) :
    ∃ l, holds (plan.request n) phase = some l ∧ ((plan.request n).lockKey, .shared) ∈ l ∧
      ((plan.request n).lockKey, .exclusive) ∉ l := by
  have hmode : ∀ key : Int64, (key, Mode.exclusive) ≠ (key, Mode.shared) := fun key h => by cases (Prod.mk.inj h).2
  cases phase with
  | retained => exact ⟨_, rfl, List.mem_singleton_self _, fun hmem => hmode _ (List.mem_singleton.mp hmem)⟩
  | unlockCoordination check ready =>
    cases ready with
    | true =>
      refine ⟨_, rfl, List.mem_cons_self .., fun hmem => ?_⟩
      rcases List.mem_cons.mp hmem with heq | hmem
      · exact hmode _ heq
      · exact plan.keysApart n hn n hn (Prod.mk.inj (List.mem_singleton.mp hmem)).1
    | false => cases h
  | _ => cases h

/-- No step changes a template that a live session has verified. -/
theorem verified_unchanged (hs : (machine plan).Reachable s) {actor : Option Nat} (h : Transition plan s t actor)
    {c : Client Program} {handle : Option Nat} {now : UInt64} {phase : Phase} (hc : s.Attempts i c n handle now phase)
    (hconnected : c.connected = true) (hphase : phase.verified = true) :
    t.server.find (plan.request n).name.value = s.server.find (plan.request n).name.value := by
  have hr := recorded hs
  have hn := hr.member _ _ _ _ _ _ hc
  obtain ⟨l, hl, hshared, hnot⟩ := holds_verified hphase hn
  have hprogram : Program.holds plan c.program = some l := by
    rw [hc.program]
    exact hl
  -- nobody has the key exclusively
  have hnobody : ∀ {j : Nat} {d : Client Program} {m : List (Int64 × Mode)}, s.clients[j]? = some d →
      d.connected = true → Program.holds plan d.program = some m → ((plan.request n).lockKey, .exclusive) ∈ m →
        False := by
    intro j d m hd hconnected' hm hmem
    have hij := (tidy hs).exclusive hd hconnected' hm hmem hc.client hconnected hprogram hshared
    subst hij
    rw [hc.client, Option.some.injEq] at hd
    rw [← hd, hprogram, Option.some.injEq] at hm
    exact hnot (hm ▸ hmem)
  cases change_of_transition hr h hn with
  | same hsame => exact hsame
  | @clients db clients hbefore hclosed hafter =>
    obtain ⟨db', hdb', htagged⟩ := facts_verified hphase ((sound hs).facts _ _ _ _ _ _ hc hconnected)
    cases hbefore.symm.trans hdb'
    have hsealed := (sound hs).isSealed n hn db hbefore htagged
    rw [hafter, hbefore, hclosed hsealed.closed hsealed.deserted, ← hsealed.deserted]
  | turned _ hd hconnected' hm hmem _ =>
    exact (hnobody hd.client hconnected' (by rw [hd.program]; exact hm) hmem).elim
  | wrote _ hd hconnected' _ _ _ =>
    exact (hnobody hd.client hconnected' (by rw [hd.program]; rfl) (List.mem_cons_self ..)).elim
  | swept _ hd hconnected' hm _ =>
    exact (hnobody hd.client hconnected' (by rw [hd.program]; exact hm) (List.mem_singleton_self _)).elim

/-- An attempt stays on its session. -/
theorem attempts_next {actor : Option Nat} (h : Transition plan s t actor) {c : Client Program} {handle : Option Nat}
    {now : UInt64} {phase : Phase} (hc : s.Attempts i c n handle now phase) :
    ∃ d now' phase', t.Attempts i d n handle now' phase' := by
  have hlt := (List.getElem?_eq_some_iff.mp hc.client).1
  -- a session that another one's step leaves alone
  have hset : ∀ {j : Nat} {d : Client Program}, t.clients = s.clients.set j d → j ≠ i →
      ∃ d now' phase', t.Attempts i d n handle now' phase' := fun hclients hji =>
    ⟨c, now, phase, by rw [hclients, List.getElem?_set_ne hji]; exact hc.client, hc.program⟩
  have happend : ∀ {p : Program}, t = s.connect p → ∃ d now' phase', t.Attempts i d n handle now' phase' := fun ht =>
    ⟨c, now, phase, by rw [ht, System.connect, List.getElem?_append_left hlt]; exact hc.client, hc.program⟩
  -- its own step keeps what it is an attempt at
  have hown : ∀ {j : Nat} {c' d : Client Program} {n' : Node} {handle' : Option Nat} {now' now'' : UInt64}
      {before after : Phase}, s.Attempts j c' n' handle' now' before → d.program = .attempt n' handle' now'' after →
      t.clients = s.clients.set j d → ∃ d now' phase', t.Attempts i d n handle now' phase' := by
    intro j c' d n' handle' now' now'' before after hc' hd hclients
    by_cases hji : j = i
    · subst hji
      have hsame : c' = c := Option.some.inj (hc'.client.symm.trans hc.client)
      subst hsame
      cases hc'.program.symm.trans hc.program
      exact ⟨d, now'', after, by rw [hclients, List.getElem?_set_self hlt], hd⟩
    · exact hset hclients hji
  cases h with
  | begun _ _ ht => exact happend ht
  | sweepBegun ht => exact happend ht
  | turned hc' _ _ hd _ hclients => exact hown hc' hd hclients
  | swept hc' _ hclients =>
    refine hset hclients fun hji => ?_
    subst hji
    have hsame := Option.some.inj (hc'.client.symm.trans hc.client)
    cases (hsame ▸ hc'.program).symm.trans hc.program
  | ticked hc' _ hclients => exact hown hc' rfl hclients
  | wrote hc' _ _ _ _ hclients => exact hown hc' rfl hclients
  | returned hc' _ _ _ hclients => exact hown hc' rfl hclients
  | @lost j c' hc' _ hclients =>
    by_cases hji : j = i
    · subst hji
      have hsame : c' = c := Option.some.inj (hc'.symm.trans hc.client)
      subst hsame
      exact ⟨{ c' with connected := false, waiting := false }, now, phase,
        by rw [hclients, List.getElem?_set_self hlt], hc.program⟩
    · exact hset hclients hji
  | clientsChanged _ _ _ hclients => exact ⟨c, now, phase, by rw [hclients]; exact hc.client, hc.program⟩
  | performed _ _ hclients => exact ⟨c, now, phase, by rw [hclients]; exact hc.client, hc.program⟩

/-- The session of an attempt runs one attempt. -/
theorem attempts_unique {c c' : Client Program} {m : Node} {handle handle' : Option Nat} {now now' : UInt64}
    {phase phase' : Phase} (hc : s.Attempts i c n handle now phase) (hc' : s.Attempts i c' m handle' now' phase') :
    c' = c ∧ m = n ∧ phase' = phase := by
  have hsame := Option.some.inj (hc'.client.symm.trans hc.client)
  cases (hsame ▸ hc'.program).symm.trans hc.program
  exact ⟨hsame, rfl, rfl⟩

/-- An attempt that was there is not new. -/
theorem not_begun {c : Client Program} {handle : Option Nat} {now : UInt64} {phase : Phase}
    (hc : s.Attempts i c n handle now phase) : i ≠ s.clients.length := fun hnew => by
  have := (List.getElem?_eq_some_iff.mp hc.client).1
  rw [hnew] at this
  exact Nat.lt_irrefl _ this

/-- A verified attempt stays one, unless it could not give the coordination lock back. -/
theorem verified_next {actor : Option Nat} (h : Transition plan s t actor) {c d : Client Program} {handle : Option Nat}
    {now now' : UInt64} {phase phase' : Phase} (hc : s.Attempts i c n handle now phase)
    (hd : t.Attempts i d n handle now' phase') (hphase : phase.verified = true) :
    (d.connected = true → c.connected = true) ∧
      (phase'.verified = true ∨ ∃ part, Over (some (part, .statement)) phase') := by
  cases course_of_transition h hd with
  | begun _ _ hnew => exact absurd hnew (not_begun hc)
  | @turned c' _ before _ hc' hconnected hturn =>
    obtain ⟨rfl, _, rfl⟩ := attempts_unique hc hc'
    refine ⟨fun hd => (Bool.and_eq_true_iff.mp (hconnected ▸ hd)).1, ?_⟩
    generalize t.server = server at hturn
    cases hturn with
    | waited => exact Or.inl hphase
    | failed hstatement =>
      cases before with
      | unlockCoordination check ready => exact Or.inr ⟨_, .returned rfl⟩
      | retained => cases hstatement
      | _ => cases hphase
    | unlockedCoordination check ready =>
      cases ready with
      | true => exact Or.inl (by cases check <;> rfl)
      | false => cases hphase
    | discarded hreturned =>
      cases before with
      | stopped part failure => cases hphase
      | aborted => cases hphase
      | _ => cases hreturned
    | _ => cases hphase
  | wrote hc' =>
    obtain ⟨_, _, rfl⟩ := attempts_unique hc hc'
    cases hphase
  | returned hc' =>
    obtain ⟨_, _, rfl⟩ := attempts_unique hc hc'
    cases hphase
  | stayed hc' hkeeps =>
    obtain ⟨rfl, _, rfl⟩ := attempts_unique hc hc'
    exact ⟨hkeeps, Or.inl hphase⟩

/-- An attempt that is over stays so. -/
theorem over_next {actor : Option Nat} (h : Transition plan s t actor) {c d : Client Program} {handle : Option Nat}
    {now now' : UInt64} {error : Option (Part × Failure)} {phase phase' : Phase} (hc : s.Attempts i c n handle now phase)
    (hd : t.Attempts i d n handle now' phase') (hover : Over error phase) : Over error phase' := by
  have hinitializing : ∀ {done}, phase = .initializing done → False := by
    rintro done rfl
    exact hover.not_working rfl nofun
  cases course_of_transition h hd with
  | begun _ _ hnew => exact absurd hnew (not_begun hc)
  | turned hc' _ hturn =>
    obtain ⟨_, _, rfl⟩ := attempts_unique hc hc'
    exact hover.turn hturn
  | wrote hc' => exact (hinitializing (attempts_unique hc hc').2.2.symm).elim
  | returned hc' => exact (hinitializing (attempts_unique hc hc').2.2.symm).elim
  | stayed hc' =>
    rw [(attempts_unique hc hc').2.2]
    exact hover

/-- From the moment an attempt has found its template ready under the shared lock, the template's
database is there, with the record of a ready template with this project, fingerprint, parent and
key. In every run the attempt keeps its lock and stays where it is, or could not give the
coordination lock back and has given up; and as long as its session lives the database is the same,
number, record and content, and no step of anybody touches it. -/
theorem ready_template_retained (hs : (machine plan).Reachable s) {c : Client Program} {handle : Option Nat}
    {now : UInt64} {phase : Phase} (hc : s.Attempts i c n handle now phase) (hconnected : c.connected = true)
    (hphase : phase.verified = true) :
    (⟨i, (plan.request n).lockKey, .shared⟩ : Lock Nat Int64) ∈ s.server.locks.held ∧
    ∃ db created, s.server.find (plan.request n).name.value = some db ∧
      db.comment.bind ResourceMetadata.parse = some (.template n.project (plan.request n).lockKey
        (n.lineage.identity plan.sha256).fingerprint (n.lineage.identity plan.sha256).parent .ready created) ∧
      ∀ actions t, (machine plan).run s actions = some t → ∃ d now' phase', t.Attempts i d n handle now' phase' ∧
        (phase'.verified = true ∧ (d.connected = true → t.server.find (plan.request n).name.value = some db) ∨
          ∃ part, Over (some (part, .statement)) phase') := by
  obtain ⟨db, hdb, created, hcomment⟩ := facts_verified hphase ((sound hs).facts _ _ _ _ _ _ hc hconnected)
  obtain ⟨l, hl, hshared, _⟩ := holds_verified hphase ((recorded hs).member _ _ _ _ _ _ hc)
  refine ⟨(tidy hs).mem_held hc.client hconnected (by rw [hc.program]; exact hl) hshared, db, created, hdb, ?_,
    fun actions t h => ?_⟩
  · rw [hcomment, Option.bind_some, ResourceMetadata.parse_encode]
    rfl
  · refine Machine.Reachable.run_related (m := machine plan) (R := fun _ t => ∃ d now' phase',
      t.Attempts i d n handle now' phase' ∧
        (phase'.verified = true ∧ (d.connected = true → t.server.find (plan.request n).name.value = some db) ∨
          ∃ part, Over (some (part, .statement)) phase')) hs
      ⟨c, now, phase, hc, Or.inl ⟨hphase, fun _ => hdb⟩⟩ (fun u a v hu ih hstep => ?_) h
    obtain ⟨d, now', phase', hd, hkept⟩ := ih
    have htransition := step_transition hstep
    obtain ⟨e, now'', phase'', he⟩ := attempts_next htransition hd
    refine ⟨e, now'', phase'', he, ?_⟩
    rcases hkept with ⟨hverified, hfound⟩ | ⟨part, hover⟩
    · obtain ⟨hlive, hverified' | hstopped⟩ := verified_next htransition hd he hverified
      · refine Or.inl ⟨hverified', fun hconnected' => ?_⟩
        rw [verified_unchanged hu htransition hd (hlive hconnected') hverified]
        exact hfound (hlive hconnected')
      · exact Or.inr hstopped
    · exact Or.inr ⟨part, over_next htransition hd he hover⟩

/-- The handle on the root that its first builder has, while its child is built. -/
theorem ready_template_retained_root : ∃ s t : State Nat, (machine samplePlan).Reachable s ∧
    (machine samplePlan).run s buildChild = some t ∧
    ∃ db, t.server.find (samplePlan.request rootNode).name.value = some db ∧
      s.server.find (samplePlan.request rootNode).name.value = some db := by
  have hrun : ((machine samplePlan).run start buildRoot).any (fun s =>
      s.clients == [⟨.attempt rootNode none 100 .retained, false, true⟩] &&
        ((machine samplePlan).run s buildChild).any fun t =>
          t.clients[0]? == some ⟨.attempt rootNode none 100 .retained, false, true⟩) = true := by
    decide +kernel
  obtain ⟨s, hs, hboth⟩ := (Option.any_eq_true _ _).mp hrun
  obtain ⟨hclients, hrest⟩ := Bool.and_eq_true_iff.mp hboth
  obtain ⟨t, ht, hkept⟩ := (Option.any_eq_true _ _).mp hrest
  have hreachable := Machine.reachable_of_run (m := machine samplePlan) _ start_initial hs
  have hc : s.Attempts 0 ⟨.attempt rootNode none 100 .retained, false, true⟩ rootNode none 100 .retained :=
    ⟨by rw [beq_iff_eq.mp hclients]; rfl, rfl⟩
  obtain ⟨_, db, _, hdb, _, hkeep⟩ := ready_template_retained hreachable hc rfl rfl
  obtain ⟨d, now', phase', hd, hcases⟩ := hkeep buildChild t ht
  have hd' : t.Attempts 0 ⟨.attempt rootNode none 100 .retained, false, true⟩ rootNode none 100 .retained :=
    ⟨beq_iff_eq.mp hkept, rfl⟩
  obtain ⟨rfl, _, rfl⟩ := attempts_unique hd' hd
  rcases hcases with ⟨_, hfound⟩ | ⟨_, hstopped⟩
  · exact ⟨s, t, hreachable, ht, db, hfound rfl, hdb⟩
  · rcases hstopped with hreturned | hdiscarded
    · cases hreturned
    · cases hdiscarded

end PostgresTestHarness.Template
