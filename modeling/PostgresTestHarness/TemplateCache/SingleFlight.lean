import PostgresTestHarness.TemplateCache.Flights

/-! One live template for each fingerprint.

A live template is the one its entry names, or is about to be published by the owner of
its entry (`Current`): an entry is replaced only when its template is gone, and a flight
publishes only while the entry is its own. -/
namespace PostgresTestHarness.TemplateCache

variable {κ : Type}

def State.fingerprintOf (s : State κ) (a : Nat) : Option κ := s.templates[a]?.map (·.fingerprint)

/-- Where the live template of a fingerprint is. -/
structure Current (s : State κ) : Prop where
  ready : ∀ k a, s.entries k = some (.ready a) → s.fingerprintOf a = some k
  published : ∀ (f : Nat) (flight : Flight κ) (a : Nat), s.flights[f]? = some flight →
    flight.template = some a → s.fingerprintOf a = some flight.fingerprint
  held : ∀ (c : Nat) (x : Caller κ) (a : Nat), s.callers[c]? = some x → x.stage.held = some a →
    s.fingerprintOf a = some x.fingerprint
  current : ∀ a k, s.live a = true → s.fingerprintOf a = some k → s.entries k = some (.ready a) ∨
    ∃ (c : Nat) (x : Caller κ) (f : Nat), s.callers[c]? = some x ∧ x.fingerprint = k ∧
      x.stage = .publishing f a

section Live
variable {s t : State κ} {c : Nat} {x : Caller κ} {a : Nat}

theorem live_of_handle {tm : Template κ} (h : s.templates[a]? = some tm) (hpos : 0 < tm.handles) :
    s.live a = true := by
  rw [State.live, h, Option.any_some, decide_eq_true hpos]
  rfl

theorem live_of_held (h : s.callers[c]? = some x) (hheld : x.stage.held = some a) :
    s.live a = true := by
  have : s.callers.any (fun x => decide (x.stage.held = some a)) = true :=
    List.any_eq_true.mpr ⟨x, List.mem_of_getElem? h, decide_eq_true hheld⟩
  rw [State.live, this, Bool.or_true]
  rfl

theorem live_of_flight {f : Nat} {flight : Flight κ} (h : s.flights[f]? = some flight)
    (htemplate : flight.template = some a) (hc : s.callers[c]? = some x)
    (hf : x.stage.flight = some f) : s.live a = true := by
  have hreferenced : s.referenced f flight = true := by
    have : s.callers.any (fun x => decide (x.stage.flight = some f)) = true :=
      List.any_eq_true.mpr ⟨x, List.mem_of_getElem? hc, decide_eq_true hf⟩
    rw [State.referenced, this]
    rfl
  have hmem : (flight, f) ∈ s.flights.zipIdx := List.mem_zipIdx_iff_getElem?.mpr h
  refine Bool.or_eq_true_iff.mpr (Or.inr (List.any_eq_true.mpr ⟨_, hmem, ?_⟩))
  exact Bool.and_eq_true_iff.mpr ⟨decide_eq_true htemplate, hreferenced⟩

/-- What keeps a template: a handle, its maker, or a waiter of its flight. -/
theorem live_cases (hs : Flying s) (h : s.live a = true) :
    (∃ tm, s.templates[a]? = some tm ∧ 0 < tm.handles) ∨
    (∃ (c : Nat) (x : Caller κ), s.callers[c]? = some x ∧ x.stage.held = some a) ∨
    ∃ (f : Nat) (flight : Flight κ) (c : Nat) (x : Caller κ), s.flights[f]? = some flight ∧ flight.template = some a ∧
      s.callers[c]? = some x ∧ x.stage.flight = some f := by
  rw [State.live, Bool.or_eq_true, Bool.or_eq_true] at h
  rcases h with (h | h) | h
  · rw [Option.any_eq_true_iff_get] at h
    obtain ⟨hsome, hpos⟩ := h
    exact Or.inl ⟨_, (Option.some_get hsome).symm, of_decide_eq_true hpos⟩
  · obtain ⟨x, hx, hheld⟩ := List.any_eq_true.mp h
    obtain ⟨c, hc⟩ := List.mem_iff_getElem?.mp hx
    exact Or.inr (Or.inl ⟨c, x, hc, of_decide_eq_true hheld⟩)
  · obtain ⟨⟨flight, f⟩, hmem, hboth⟩ := List.any_eq_true.mp h
    rw [Bool.and_eq_true, decide_eq_true_eq, State.referenced, Bool.or_eq_true] at hboth
    have hflight := List.mem_zipIdx_iff_getElem?.mp hmem
    obtain ⟨htemplate, hcaller | hentry⟩ := hboth
    · obtain ⟨x, hx, hf⟩ := List.any_eq_true.mp hcaller
      obtain ⟨c, hc⟩ := List.mem_iff_getElem?.mp hx
      exact Or.inr (Or.inr ⟨f, flight, c, x, hflight, htemplate, hc, of_decide_eq_true hf⟩)
    · obtain ⟨found, hfound, _, hnone, _⟩ := hs.found (of_decide_eq_true hentry)
      obtain rfl := Option.some.inj (hflight.symm.trans hfound)
      rw [htemplate] at hnone
      cases hnone

/-- A call that keeps nothing that was not alive. -/
structure Harmless (s : State κ) (a : Nat) (stage : Stage) : Prop where
  held : stage.held = some a → s.live a = true
  flight : ∀ (f : Nat) (flight : Flight κ), stage.flight = some f → s.flights[f]? = some flight →
    flight.template = some a → s.live a = true

theorem harmless_of_flight (hc : s.callers[c]? = some x) {stage : Stage} (held : stage.held = none)
    (flight : ∀ f, stage.flight = some f → x.stage.flight = some f) : Harmless s a stage := by
  refine ⟨fun h => ?_, fun f fl hf hfl htemplate => live_of_flight hfl htemplate hc (flight f hf)⟩
  rw [held] at h
  cases h

/-- A step keeps a template alive only if something did before. -/
theorem live_before (ht : Flying t)
    (callers : ∀ (d : Nat) (z : Caller κ), t.callers[d]? = some z →
      s.callers[d]? = some z ∨ Harmless s a z.stage)
    (handles : ∀ tm, t.templates[a]? = some tm → 0 < tm.handles → s.live a = true)
    (flights : ∀ (f : Nat) (flight : Flight κ), t.flights[f]? = some flight → flight.template = some a →
      (∃ before, s.flights[f]? = some before ∧ before.template = some a) ∨ s.live a = true)
    (h : t.live a = true) : s.live a = true := by
  rcases live_cases ht h with ⟨tm, htm, hpos⟩ | ⟨d, z, hd, hheld⟩ | ⟨f, fl, d, z, hfl, htemplate, hd, hf⟩
  · exact handles tm htm hpos
  · rcases callers d z hd with hd | hharmless
    · exact live_of_held hd hheld
    · exact hharmless.held hheld
  · rcases flights f fl hfl htemplate with ⟨before, hbefore, hsame⟩ | hlive
    · rcases callers d z hd with hd | hharmless
      · exact live_of_flight hbefore hsame hd hf
      · exact hharmless.flight f before hf hbefore hsame
    · exact hlive

theorem addHandle_fingerprintOf (b : Nat) : (s.addHandle b).fingerprintOf a = s.fingerprintOf a := by
  rw [State.fingerprintOf, State.fingerprintOf, State.addHandle, List.getElem?_modify, Option.map_eq_map,
    Option.map_map]
  congr 1
  funext tm
  show (if b = a then _ else tm).fingerprint = tm.fingerprint
  split <;> rfl

/-- Only a live template gets another handle. -/
theorem addHandle_handles {b : Nat} (hb : s.live b = true) {tm : Template κ}
    (h : (s.addHandle b).templates[a]? = some tm) (hpos : 0 < tm.handles) : s.live a = true := by
  rw [State.addHandle, List.getElem?_modify, Option.map_eq_map, Option.map_eq_some_iff] at h
  obtain ⟨before, hbefore, rfl⟩ := h
  by_cases hba : b = a
  · exact hba ▸ hb
  · rw [if_neg hba] at hpos
    exact live_of_handle hbefore hpos

theorem fingerprintOf_concat {tm : Template κ} {k : κ} (h : s.fingerprintOf a = some k) :
    ({ s with templates := s.templates ++ [tm] } : State κ).fingerprintOf a = some k := by
  rw [State.fingerprintOf, Option.map_eq_some_iff] at h
  obtain ⟨before, hbefore, hk⟩ := h
  exact Option.map_eq_some_iff.mpr ⟨before, Ledger.getElem?_concat_of_some hbefore, hk⟩

/-- A step that leaves the entries alone, makes no template and publishes none. -/
theorem Current.keep (hs : Current s) (entries : t.entries = s.entries)
    (flights : ∀ (f : Nat) (flight : Flight κ), t.flights[f]? = some flight → ∃ before,
      s.flights[f]? = some before ∧ before.template = flight.template ∧
        before.fingerprint = flight.fingerprint)
    (fingerprints : ∀ a, t.fingerprintOf a = s.fingerprintOf a)
    (callers : ∀ (d : Nat) (z : Caller κ), t.callers[d]? = some z →
      s.callers[d]? = some z ∨ z.stage.held = none)
    (publishing : ∀ (d : Nat) (z : Caller κ) (f a : Nat), s.callers[d]? = some z →
      z.stage = .publishing f a → t.callers[d]? = some z)
    (live : ∀ a, t.live a = true → s.live a = true) : Current t := by
  refine ⟨fun k a hk => ?_, fun f flight a hf ha => ?_, fun d z a hd ha => ?_, fun a k ha hk => ?_⟩
  · rw [fingerprints]
    exact hs.ready k a (entries ▸ hk)
  · obtain ⟨before, hbefore, htemplate, hfingerprint⟩ := flights f flight hf
    rw [fingerprints, ← hfingerprint]
    exact hs.published f before a hbefore (htemplate.trans ha)
  · rw [fingerprints]
    rcases callers d z hd with hd | hnone
    · exact hs.held d z a hd ha
    · rw [hnone] at ha
      cases ha
  · rw [entries]
    refine (hs.current a k (live a ha) (fingerprints a ▸ hk)).imp id ?_
    intro hparts
    obtain ⟨d, z, f, hd, hz, hstage⟩ := hparts
    exact ⟨d, z, f, publishing d z f a hd hstage, hz, hstage⟩

theorem publishing_stays (hc : s.callers[c]? = some x) (idle : ∀ f a, x.stage ≠ .publishing f a)
    (y : Caller κ) (d : Nat) (z : Caller κ) (f a : Nat) (hd : s.callers[d]? = some z)
    (hstage : z.stage = .publishing f a) : (s.callers.set c y)[d]? = some z := by
  have hdc : d ≠ c := fun hdc => by
    rw [hdc, hc, Option.some.injEq] at hd
    exact idle f a (hd ▸ hstage)
  rw [List.getElem?_set_ne (Ne.symm hdc)]
  exact hd

/-- A call that is not about to publish goes on. -/
theorem Current.move (hs : Current s) (ht : Flying t) (hc : s.callers[c]? = some x) (y : Caller κ)
    (callers : t.callers = s.callers.set c y) (entries : t.entries = s.entries)
    (flights : ∀ (f : Nat) (flight : Flight κ), t.flights[f]? = some flight → ∃ before,
      s.flights[f]? = some before ∧ before.template = flight.template ∧
        before.fingerprint = flight.fingerprint)
    (fingerprints : ∀ a, t.fingerprintOf a = s.fingerprintOf a)
    (handles : ∀ a tm, t.templates[a]? = some tm → 0 < tm.handles → s.live a = true)
    (idle : ∀ f a, x.stage ≠ .publishing f a) (held : y.stage.held = none)
    (harmless : ∀ a, Harmless s a y.stage) : Current t := by
  have hcases : ∀ {d : Nat} {z : Caller κ}, t.callers[d]? = some z → s.callers[d]? = some z ∨ z = y := by
    intro d z hd
    rw [callers] at hd
    exact (Ledger.getElem?_set_cases hd).symm.imp And.right And.right
  refine hs.keep entries flights fingerprints (fun d z hd => ?_) ?_ fun a => ?_
  · rcases hcases hd with hd | rfl
    · exact Or.inl hd
    · exact Or.inr held
  · rw [callers]
    exact publishing_stays hc idle y
  · refine live_before ht (fun d z hd => ?_) (handles a) fun f flight hf ha => Or.inl ?_
    · rcases hcases hd with hd | rfl
      · exact Or.inl hd
      · exact Or.inr (harmless a)
    · obtain ⟨before, hbefore, htemplate, _⟩ := flights f flight hf
      exact ⟨before, hbefore, htemplate.trans ha⟩

theorem flights_same (f : Nat) (flight : Flight κ) (h : s.flights[f]? = some flight) : ∃ before,
    s.flights[f]? = some before ∧ before.template = flight.template ∧
      before.fingerprint = flight.fingerprint := ⟨flight, h, rfl, rfl⟩

theorem flights_completed (g f : Nat) (flight : Flight κ)
    (h : (s.completeFlight g).flights[f]? = some flight) : ∃ before,
    s.flights[f]? = some before ∧ before.template = flight.template ∧
      before.fingerprint = flight.fingerprint := by
  rcases completeFlight_cases h with ⟨_, _, before, hbefore, rfl⟩ | ⟨_, hbefore⟩
  · exact ⟨before, hbefore, rfl, rfl⟩
  · exact ⟨flight, hbefore, rfl, rfl⟩

theorem prune_ready {k : κ} (h : s.pruneExpiredReadyEntries k = some (.ready a)) :
    s.entries k = some (.ready a) := by
  rw [State.pruneExpiredReadyEntries] at h
  split at h
  · rename_i b hb
    split at h
    · exact hb.trans h
    · cases h
  · exact h

theorem Go.idle {stage next : Stage} (h : Go s stage next) (f a : Nat) : stage ≠ .publishing f a := by
  cases h <;> exact nofun

/-- The new template of an owner that is about to publish it. -/
theorem Current.make (hs : Current s) {f : Nat} (ht : Flying (s.newTemplate c x f))
    (hc : s.callers[c]? = some x) (idle : ∀ f a, x.stage ≠ .publishing f a)
    (flight : x.stage.flight = some f) : Current (s.newTemplate c x f) := by
  have hkept : ∀ a k, s.fingerprintOf a = some k → (s.newTemplate c x f).fingerprintOf a = some k :=
    fun _ _ h => fingerprintOf_concat h
  have hself : (s.newTemplate c x f).callers[c]? =
      some { x with stage := .publishing f s.templates.length } := Ledger.getElem?_set_of_some hc
  refine ⟨fun k a hk => hkept a k (hs.ready k a hk), fun g fl a hg ha => hkept a _ (hs.published g fl a hg ha),
    fun d z a hd ha => ?_, fun a k ha hk => ?_⟩
  · rcases Ledger.getElem?_set_cases hd with ⟨rfl, rfl⟩ | ⟨_, hd'⟩
    · cases ha
      exact Option.map_eq_some_iff.mpr ⟨_, List.getElem?_concat_length, rfl⟩
    · exact hkept a _ (hs.held d z a hd' ha)
  · obtain ⟨tm, htm, hfingerprint⟩ := Option.map_eq_some_iff.mp hk
    rcases Ledger.getElem?_concat_cases htm with ⟨rfl, rfl⟩ | htm
    · exact Or.inr ⟨c, _, f, hself, hfingerprint, rfl⟩
    · have hnew : a ≠ s.templates.length := fun hnew =>
        Nat.lt_irrefl _ (hnew ▸ (List.getElem?_eq_some_iff.mp htm).1)
      have hbefore : s.live a = true := by
        refine live_before ht (fun d z hd => ?_) (fun tm htm' hpos => ?_)
          (fun g fl hg htemplate => Or.inl ⟨fl, hg, htemplate⟩) ha
        · rcases Ledger.getElem?_set_cases hd with ⟨rfl, rfl⟩ | ⟨_, hd'⟩
          · refine Or.inr ⟨fun hheld => absurd (Option.some.inj hheld).symm hnew, fun g fl hg hfl htemplate => ?_⟩
            cases hg
            exact live_of_flight hfl htemplate hc flight
          · exact Or.inl hd'
        · rcases Ledger.getElem?_concat_cases htm' with ⟨hlast, _⟩ | htm'
          · exact absurd hlast hnew
          · exact live_of_handle htm' hpos
      refine (hs.current a k hbefore (Option.map_eq_some_iff.mpr ⟨tm, htm, hfingerprint⟩)).imp id ?_
      intro hparts
      obtain ⟨d, z, g, hd, hz, hpublishing⟩ := hparts
      have hdc : d ≠ c := fun hdc => by
        rw [hdc, hc, Option.some.injEq] at hd
        exact idle g a (hd ▸ hpublishing)
      exact ⟨d, z, g, (List.getElem?_set_ne (Ne.symm hdc)).trans hd, hz, hpublishing⟩

/-- Whether the caller cannot have called its initializer. -/
def Stage.untaken : Stage → Bool
  | .deciding | .waiting _ _ | .changing _ _ | .woken _ | .preparing _ => true
  | _ => false

/-- Each closure is there until its one call, and no assertion has failed. -/
structure Untaken (s : State κ) : Prop where
  expect : s.expectFailed = false
  asserts : s.assertsHeld = true
  consumed : ∀ (c : Nat) (x : Caller κ), s.callers[c]? = some x → x.consumed ≤ 1
  present : ∀ (c : Nat) (x : Caller κ), s.callers[c]? = some x → x.stage.untaken = true →
    x.initializer = true ∧ x.consumed = 0

theorem Untaken.move (hs : Untaken s) (hc : s.callers[c]? = some x) (stage : Stage)
    (callers : t.callers = s.callers.set c { x with stage }) (expect : t.expectFailed = s.expectFailed)
    (asserts : t.assertsHeld = true) (untaken : stage.untaken = true → x.stage.untaken = true) :
    Untaken t := by
  refine ⟨expect.trans hs.expect, asserts, fun d z hd => ?_, fun d z hd hz => ?_⟩
  · rw [callers] at hd
    rcases Ledger.getElem?_set_cases hd with ⟨rfl, rfl⟩ | ⟨_, hd⟩
    · exact hs.consumed d x hc
    · exact hs.consumed d z hd
  · rw [callers] at hd
    rcases Ledger.getElem?_set_cases hd with ⟨rfl, rfl⟩ | ⟨_, hd⟩
    · exact hs.present d x hc (untaken hz)
    · exact hs.present d z hd hz

theorem Go.untaken {stage next : Stage} (h : Go s stage next) (hn : next.untaken = true) :
    stage.untaken = true := by
  cases h <;> first | rfl | cases hn

/-- Two templates of one fingerprint are not alive together. -/
theorem Current.unique (hs : Current s) (hf : Flying s) {a b : Nat} {k : κ} (ha : s.live a = true)
    (hb : s.live b = true) (hak : s.fingerprintOf a = some k) (hbk : s.fingerprintOf b = some k) :
    a = b := by
  -- a maker owns the flight of the entry, so it is the only one and no template is ready
  have hmaker : ∀ {c : Nat} {x : Caller κ} {f a : Nat}, s.callers[c]? = some x → x.fingerprint = k →
      x.stage = .publishing f a → s.entries k = some (.initializing f) := by
    intro c x f a hc hk hstage
    rw [← hk]
    exact hf.entry_of_active hc (hstage ▸ rfl)
  rcases hs.current a k ha hak with hra | ⟨c, x, f, hc, hx, hxs⟩ <;>
    rcases hs.current b k hb hbk with hrb | ⟨d, y, g, hd, hy, hys⟩
  · rw [hra, Option.some.injEq, Entry.ready.injEq] at hrb
    exact hrb
  · rw [hmaker hd hy hys] at hra
    cases hra
  · rw [hmaker hc hx hxs] at hrb
    cases hrb
  · have hfg := (hmaker hc hx hxs).symm.trans (hmaker hd hy hys)
    rw [Option.some.injEq, Entry.initializing.injEq] at hfg
    have hcd : c = d := hf.alone c d x y f hc hd (hxs ▸ rfl) (hys ▸ hfg ▸ rfl)
    subst hcd
    rw [hc, Option.some.injEq] at hd
    rw [hd, hys, Stage.publishing.injEq] at hxs
    exact hxs.2.symm

section Effects
variable [DecidableEq κ]

/-- An expired entry gives way to a new flight. -/
theorem Current.start (hs : Current s) (ht : Flying (s.startFlight c x))
    (hc : s.callers[c]? = some x) (stage : x.stage = .deciding)
    (expired : ∀ a, s.entries x.fingerprint = some (.ready a) → s.live a = false) :
    Current (s.startFlight c x) := by
  have hentries : ∀ k, (s.startFlight c x).entries k = Function.update s.pruneExpiredReadyEntries
    x.fingerprint (some (.initializing s.flights.length)) k := fun _ => rfl
  refine ⟨fun k a hk => ?_, fun f flight a hflight ha => ?_, fun d z a hd ha => ?_, fun a k ha hk => ?_⟩
  · by_cases hkx : k = x.fingerprint
    · rw [hentries, hkx, Function.update_self] at hk
      cases hk
    · rw [hentries, Function.update_of_ne hkx] at hk
      exact hs.ready k a (prune_ready hk)
  · rcases Ledger.getElem?_concat_cases hflight with ⟨_, rfl⟩ | hbefore
    · cases ha
    · exact hs.published f flight a hbefore ha
  · rcases Ledger.getElem?_set_cases hd with ⟨rfl, rfl⟩ | ⟨_, hd'⟩
    · cases ha
    · exact hs.held d z a hd' ha
  · have hbefore : s.live a = true := by
      refine live_before ht (fun d z hd => ?_) (fun tm htm hpos => live_of_handle htm hpos)
        (fun f flight hflight htemplate => ?_) ha
      · rcases Ledger.getElem?_set_cases hd with ⟨rfl, rfl⟩ | ⟨_, hd'⟩
        · refine Or.inr ⟨nofun, fun f flight hflight hfound _ => ?_⟩
          cases hflight
          exact absurd (List.getElem?_eq_some_iff.mp hfound).1 (Nat.lt_irrefl _)
        · exact Or.inl hd'
      · rcases Ledger.getElem?_concat_cases hflight with ⟨_, rfl⟩ | hold
        · cases htemplate
        · exact Or.inl ⟨flight, hold, htemplate⟩
    rcases hs.current a k hbefore hk with hready | ⟨d, z, f, hd, hz, hpublishing⟩
    · by_cases hkx : k = x.fingerprint
      · rw [expired a (hkx ▸ hready)] at hbefore
        cases hbefore
      · refine Or.inl ?_
        rw [hentries, Function.update_of_ne hkx, State.pruneExpiredReadyEntries, hready]
        exact if_pos hbefore
    · have hdc : d ≠ c := fun hdc => by
        rw [hdc, hc, Option.some.injEq] at hd
        rw [← hd, stage] at hpublishing
        cases hpublishing
      exact Or.inr ⟨d, z, f, (List.getElem?_set_ne (Ne.symm hdc)).trans hd, hz, hpublishing⟩

/-- The owner's template takes the place of its flight. -/
theorem Current.publish (hs : Current s) (hf : Flying s) {f a : Nat} {flight : Flight κ} {b : Bool}
    (ht : Flying (({ s with
      entries := Function.update s.entries x.fingerprint (some (.ready a))
      flights := s.flights.set f { flight with template := some a } }.setStage c x
        (Stage.completing f a)).assert b)) (hc : s.callers[c]? = some x)
    (stage : x.stage = .publishing f a) (found : s.flights[f]? = some flight)
    (entry : s.entries x.fingerprint = some (.initializing f)) :
    Current (({ s with
      entries := Function.update s.entries x.fingerprint (some (.ready a))
      flights := s.flights.set f { flight with template := some a } }.setStage c x
        (Stage.completing f a)).assert b) := by
  have hheld := hs.held c x a hc (stage ▸ rfl)
  refine ⟨fun k d hk => ?_, fun g fl d hg hd => ?_, fun d z e hd he => ?_, fun d k hd hk => ?_⟩
  · have hk : Function.update s.entries x.fingerprint (some (.ready a)) k = some (.ready d) := hk
    by_cases hkx : k = x.fingerprint
    · rw [hkx, Function.update_self, Option.some.injEq, Entry.ready.injEq] at hk
      rw [hkx, ← hk]
      exact hheld
    · rw [Function.update_of_ne hkx] at hk
      exact hs.ready k d hk
  · rcases Ledger.getElem?_set_cases hg with ⟨rfl, rfl⟩ | ⟨_, hg'⟩
    · obtain ⟨_, hfound, hfingerprint, _⟩ := hf.found entry
      obtain rfl := Option.some.inj (found.symm.trans hfound)
      cases hd
      show s.fingerprintOf a = some flight.fingerprint
      rw [hheld, hfingerprint]
    · exact hs.published g fl d hg' hd
  · rcases Ledger.getElem?_set_cases hd with ⟨rfl, rfl⟩ | ⟨_, hd'⟩
    · cases he
      exact hheld
    · exact hs.held d z e hd' he
  · have hbefore : s.live d = true := by
      refine live_before ht (fun e z he => ?_) (fun _ htm hpos => live_of_handle htm hpos)
        (fun g fl hg htemplate => ?_) hd
      · rcases Ledger.getElem?_set_cases he with ⟨rfl, rfl⟩ | ⟨_, he'⟩
        · refine Or.inr ⟨fun hsame => ?_, fun g fl hg hfl htemplate => ?_⟩
          · cases hsame
            exact live_of_held hc (stage ▸ rfl)
          · cases hg
            exact live_of_flight hfl htemplate hc (stage ▸ rfl)
        · exact Or.inl he'
      · rcases Ledger.getElem?_set_cases hg with ⟨rfl, rfl⟩ | ⟨_, hg'⟩
        · cases htemplate
          exact Or.inr (live_of_held hc (stage ▸ rfl))
        · exact Or.inl ⟨fl, hg', htemplate⟩
    show Function.update s.entries x.fingerprint (some (.ready a)) k = some (.ready d) ∨ _
    rcases hs.current d k hbefore hk with hready | ⟨e, z, g, he, hz, hpublishing⟩
    · have hkx : k ≠ x.fingerprint := fun hkx => by
        rw [hkx, entry] at hready
        cases hready
      exact Or.inl ((Function.update_of_ne hkx ..).trans hready)
    · by_cases hec : e = c
      · rw [hec, hc, Option.some.injEq] at he
        rw [← he, stage, Stage.publishing.injEq] at hpublishing
        refine Or.inl ?_
        rw [← hz, ← he, ← hpublishing.2]
        exact Function.update_self ..
      · exact Or.inr ⟨e, z, g, (List.getElem?_set_ne (Ne.symm hec)).trans he, hz, hpublishing⟩

/-- The entry of an abandoned flight goes; nothing of its fingerprint is alive. -/
theorem Current.release (hs : Current s) {f : Nat}
    (ht : Flying ({ s with entries := Function.update s.entries x.fingerprint none }.setStage c x
      (Stage.dropped f))) (hc : s.callers[c]? = some x) (stage : x.stage = .dropping f)
    (entry : s.entries x.fingerprint = some (.initializing f)) :
    Current ({ s with entries := Function.update s.entries x.fingerprint none }.setStage c x
      (Stage.dropped f)) := by
  refine ⟨fun k a hk => ?_, hs.published, fun d z a hd ha => ?_, fun a k ha hk => ?_⟩
  · have hk : Function.update s.entries x.fingerprint none k = some (.ready a) := hk
    by_cases hkx : k = x.fingerprint
    · rw [hkx, Function.update_self] at hk
      cases hk
    · rw [Function.update_of_ne hkx] at hk
      exact hs.ready k a hk
  · rcases Ledger.getElem?_set_cases hd with ⟨rfl, rfl⟩ | ⟨_, hd'⟩
    · cases ha
    · exact hs.held d z a hd' ha
  · have hbefore : s.live a = true := by
      refine live_before ht (fun d z hd => ?_) (fun _ htm hpos => live_of_handle htm hpos)
        (fun g fl hg htemplate => Or.inl ⟨fl, hg, htemplate⟩) ha
      rcases Ledger.getElem?_set_cases hd with ⟨rfl, rfl⟩ | ⟨_, hd'⟩
      · exact Or.inr (harmless_of_flight hc rfl fun g hg => by rw [stage]; exact hg)
      · exact Or.inl hd'
    show Function.update s.entries x.fingerprint none k = some (.ready a) ∨ _
    rcases hs.current a k hbefore hk with hready | ⟨e, z, g, he, hz, hpublishing⟩
    · have hkx : k ≠ x.fingerprint := fun hkx => by
        rw [hkx, entry] at hready
        cases hready
      exact Or.inl ((Function.update_of_ne hkx ..).trans hready)
    · have hec : e ≠ c := fun hec => by
        rw [hec, hc, Option.some.injEq] at he
        rw [← he, stage] at hpublishing
        cases hpublishing
      exact Or.inr ⟨e, z, g, (List.getElem?_set_ne (Ne.symm hec)).trans he, hz, hpublishing⟩

theorem current_step (h : Transition s t) (hf : Flying s) (hs : Current s) : Current t := by
  have ht := flying_step h hf
  have hhandles : ∀ a tm, s.templates[a]? = some tm → 0 < tm.handles → s.live a = true :=
    fun _ _ h hpos => live_of_handle h hpos
  cases h with
  | call fingerprint =>
    have hcases : ∀ {d : Nat} {z : Caller κ},
        (s.callers ++ [⟨fingerprint, true, 0, .deciding⟩])[d]? = some z →
          s.callers[d]? = some z ∨ z.stage = .deciding := by
      intro d z hd
      rcases Ledger.getElem?_concat_cases hd with ⟨_, rfl⟩ | hd
      · exact Or.inr rfl
      · exact Or.inl hd
    refine hs.keep rfl flights_same (fun _ => rfl) (fun d z hd => ?_)
      (fun d z f a hd _ => Ledger.getElem?_concat_of_some hd) fun a => ?_
    · exact (hcases hd).imp id fun h => by rw [h]; rfl
    · refine live_before ht (fun d z hd => ?_) (hhandles a) fun f flight hf ha => Or.inl ⟨flight, hf, ha⟩
      refine (hcases hd).imp id fun h => ?_
      rw [h]
      exact ⟨nofun, nofun⟩
  | hit c x a caller stage entry alive =>
    refine hs.move ht caller _ rfl rfl flights_same (fun _ => addHandle_fingerprintOf a)
      (fun _ _ => addHandle_handles alive) ?_ rfl fun _ => ⟨nofun, nofun⟩
    rw [stage]
    exact nofun
  | join c x f flight caller stage entry found =>
    obtain ⟨_, hfound, _, hnone, _⟩ := hf.found entry
    refine hs.move ht caller _ rfl rfl flights_same (fun _ => rfl) hhandles ?_ rfl fun _ =>
      ⟨nofun, fun g fl hg hfl htemplate => ?_⟩
    · rw [stage]
      exact nofun
    · cases hg
      obtain rfl := Option.some.inj (hfl.symm.trans hfound)
      rw [hnone] at htemplate
      cases htemplate
  | cold c x caller stage nobody expired => exact hs.start ht caller stage expired
  | go c x stage caller rule =>
    exact hs.move ht caller _ rfl rfl flights_same (fun _ => rfl) hhandles rule.idle rule.held fun _ =>
      harmless_of_flight caller rule.held fun _ => rule.flight
  | read c x f flight a caller stage found published =>
    have hlive : s.live a = true := live_of_flight found published caller (stage ▸ rfl)
    refine hs.move ht caller _ rfl rfl flights_same (fun _ => addHandle_fingerprintOf a)
      (fun _ _ => addHandle_handles hlive) ?_ rfl fun _ => ⟨nofun, nofun⟩
    rw [stage]
    exact nofun
  | take c x f caller stage present | taken c x f caller stage absent =>
    refine hs.move ht caller _ rfl rfl flights_same (fun _ => rfl) hhandles ?_ rfl fun _ =>
      harmless_of_flight caller rfl fun _ hg => stage ▸ hg
    rw [stage]
    exact nofun
  | made c x f caller stage =>
    refine hs.make ht caller ?_ ?_
    · rcases stage with stage | stage <;> rw [stage] <;> exact nofun
    · rcases stage with stage | stage <;> rw [stage] <;> rfl
  | publish c x f a flight caller stage found entry =>
    exact hs.publish hf ht caller stage found entry
  | publishLost c x f a caller stage lost =>
    exact absurd (hf.entry_of_active caller (stage ▸ rfl)) lost
  | release c x f caller stage entry => exact hs.release ht caller stage entry
  | releaseLost c x f caller stage lost =>
    exact absurd (hf.entry_of_active caller (stage ▸ rfl)) lost
  | complete c x f a caller stage =>
    have hlive : s.live a = true := live_of_held caller (stage ▸ rfl)
    refine hs.move ht caller _ rfl rfl (flights_completed f) (fun _ => addHandle_fingerprintOf (s := s) a)
      (fun _ _ => addHandle_handles hlive) ?_ rfl fun _ => ⟨nofun, nofun⟩
    rw [stage]
    exact nofun
  | completeDropped c x f caller stage =>
    refine hs.move ht caller _ rfl rfl (flights_completed f) (fun _ => rfl) hhandles ?_ rfl
      fun _ => ⟨nofun, nofun⟩
    rw [stage]
    exact nofun
  | cloneHandle a tm found handle =>
    refine hs.keep rfl flights_same (fun _ => addHandle_fingerprintOf a) (fun _ _ => Or.inl)
      (fun _ _ _ _ hd _ => hd) fun b => ?_
    exact live_before ht (fun _ _ => Or.inl) (fun _ => addHandle_handles (live_of_handle found handle))
      fun f flight hf ha => Or.inl ⟨flight, hf, ha⟩
  | dropHandle a tm found handle =>
    refine hs.keep rfl flights_same (fun b => ?_) (fun _ _ => Or.inl) (fun _ _ _ _ hd _ => hd) fun b => ?_
    · by_cases hba : b = a
      · rw [hba, State.fingerprintOf, State.fingerprintOf, Ledger.getElem?_set_of_some found, found]
        rfl
      · rw [State.fingerprintOf, State.fingerprintOf, List.getElem?_set_ne (Ne.symm hba)]
    · refine live_before ht (fun _ _ => Or.inl) (fun tm' htm hpos => ?_)
        fun f flight hf ha => Or.inl ⟨flight, hf, ha⟩
      rcases Ledger.getElem?_set_cases htm with ⟨rfl, _⟩ | ⟨_, htm⟩
      · exact live_of_handle found handle
      · exact live_of_handle htm hpos

theorem current (h : (machine κ).Reachable s) : Current s := by
  have hinv : (machine κ).Invariant Current := by
    refine ⟨?_, fun s a t hreach hs hstep =>
      current_step (step_transition s t a hstep) (flying hreach) hs⟩
    intro _ heq
    obtain rfl := heq
    exact ⟨nofun, nofun, nofun, nofun⟩
  exact hinv.holds h

theorem untaken_step (h : Transition s t) (hf : Flying s) (hs : Untaken s) : Untaken t := by
  cases h with
  | call fingerprint =>
    refine ⟨hs.expect, hs.asserts, fun d z hd => ?_, fun d z hd hz => ?_⟩
    · rcases Ledger.getElem?_concat_cases hd with ⟨_, rfl⟩ | hd
      · exact Nat.zero_le 1
      · exact hs.consumed d z hd
    · rcases Ledger.getElem?_concat_cases hd with ⟨_, rfl⟩ | hd
      · exact ⟨rfl, rfl⟩
      · exact hs.present d z hd hz
  | hit c x a caller stage | join c x f flight caller stage | cold c x caller stage =>
    exact hs.move caller _ rfl rfl hs.asserts fun _ => by rw [stage]; rfl
  | go c x stage caller rule => exact hs.move caller _ rfl rfl hs.asserts rule.untaken
  | read c x f flight a caller stage | complete c x f a caller stage | completeDropped c x f caller stage =>
    exact hs.move caller _ rfl rfl hs.asserts nofun
  | made c x f caller stage | release c x f caller stage | releaseLost c x f caller stage =>
    exact hs.move caller _ rfl rfl hs.asserts nofun
  | take c x f caller stage present =>
    have hcaller := hs.present c x caller (stage ▸ rfl)
    refine ⟨hs.expect, hs.asserts, fun d z hd => ?_, fun d z hd hz => ?_⟩
    · rcases Ledger.getElem?_set_cases hd with ⟨rfl, rfl⟩ | ⟨_, hd⟩
      · exact Nat.le_of_eq (congrArg Nat.succ hcaller.2)
      · exact hs.consumed d z hd
    · rcases Ledger.getElem?_set_cases hd with ⟨rfl, rfl⟩ | ⟨_, hd⟩
      · cases hz
      · exact hs.present d z hd hz
  | taken c x f caller stage absent =>
    rw [(hs.present c x caller (stage ▸ rfl)).1] at absent
    cases absent
  | publish c x f a flight caller stage found entry =>
    have hnone := hf.unpublished c x f flight caller (stage ▸ rfl) found
    refine hs.move caller _ rfl rfl (Bool.and_eq_true_iff.mpr ⟨hs.asserts, ?_⟩) nofun
    rw [hnone]
    rfl
  | publishLost c x f a caller stage lost =>
    exact absurd (hf.entry_of_active caller (stage ▸ rfl)) lost
  | cloneHandle | dropHandle => exact ⟨hs.expect, hs.asserts, hs.consumed, hs.present⟩

theorem untaken (h : (machine κ).Reachable s) : Untaken s := by
  have hinv : (machine κ).Invariant Untaken := by
    refine ⟨?_, fun s a t hreach hs hstep =>
      untaken_step (step_transition s t a hstep) (flying hreach) hs⟩
    intro _ heq
    obtain rfl := heq
    exact ⟨rfl, rfl, nofun, nofun⟩
  exact hinv.holds h

/-- A woken waiter gets what its flight published, or goes back to the loop. -/
theorem read_step {f : Nat} {flight : Flight κ} (hc : s.callers[c]? = some x) (hstage : x.stage = .woken f)
    (found : s.flights[f]? = some flight) : ∃ t, s.step (.read c) = some t ∧
      t.callers[c]? = some { x with stage := flight.template.elim .deciding .returned } := by
  cases htemplate : flight.template with
  | some a =>
    refine ⟨(s.addHandle a).setStage c x (.returned a), ?_, Ledger.getElem?_set_of_some hc⟩
    simp only [State.step, State.read, hc, hstage, found, htemplate]
  | none =>
    refine ⟨s.setStage c x .deciding, ?_, Ledger.getElem?_set_of_some hc⟩
    simp only [State.step, State.read, hc, hstage, found, htemplate]

/-- A flight without an owner has woken its waiters: a waiter's own steps end its wait. -/
theorem Flying.wakes (hs : Flying s) {f : Nat} (hc : s.callers[c]? = some x)
    (hawaits : x.stage.awaits = some f)
    (hgone : ∀ (d : Nat) (y : Caller κ), s.callers[d]? = some y → y.stage.owner ≠ some f) :
    ∃ flight t, s.flights[f]? = some flight ∧
      ((machine κ).run s [.borrow c, .read c] = some t ∨
        (machine κ).run s [.changed c, .read c] = some t) ∧
      t.callers[c]? = some { x with stage := flight.template.elim .deciding .returned } := by
  have hflight : x.stage.flight = some f := by
    cases hstage : x.stage <;> rw [hstage] at hawaits <;> first | exact hawaits | cases hawaits
  obtain ⟨flight, found, _⟩ := hs.known c x f hc hflight
  have hcompleted : flight.completed = true := by
    by_contra hrunning
    obtain ⟨d, y, hd, hy⟩ := hs.running f flight found (Bool.not_eq_true _ ▸ hrunning)
    exact hgone d y hd hy
  obtain ⟨t, hread, ht⟩ := read_step (s := s.setStage c x (.woken f)) (Ledger.getElem?_set_of_some hc)
    rfl found
  refine ⟨flight, t, found, ?_, ht⟩
  cases hstage : x.stage with
  | waiting g seen =>
    rw [hstage] at hawaits
    cases hawaits
    have hborrow : s.step (.borrow c) = some (s.setStage c x (.woken f)) := by
      simp only [State.step, State.borrow, hc, hstage, found, hcompleted, if_true]
    refine Or.inl ?_
    show (s.step (.borrow c)).bind _ = some t
    rw [hborrow]
    show (State.step _ (.read c)).bind _ = some t
    rw [hread]
    rfl
  | changing g seen =>
    rw [hstage] at hawaits
    cases hawaits
    have hseen : seen = 0 := hs.seen c x f seen hc (Or.inr hstage)
    have hversion : flight.version ≠ seen := hseen ▸ (hs.version f flight found).mp hcompleted
    have hchanged : s.step (.changed c) = some (s.setStage c x (.woken f)) := by
      simp only [State.step, State.changed, hc, hstage, found, ne_eq, hversion, not_false_eq_true, if_true]
    refine Or.inr ?_
    show (s.step (.changed c)).bind _ = some t
    rw [hchanged]
    show (State.step _ (.read c)).bind _ = some t
    rw [hread]
    rfl
  | _ =>
    rw [hstage] at hawaits
    cases hawaits

/-! ### What a flight has published -/

/-- The flight has published the template. -/
def State.Published (s : State κ) (f a : Nat) : Prop :=
  ∃ flight, s.flights[f]? = some flight ∧ flight.template = some a

/-- The flight has published nothing, and has no owner left that could. -/
structure State.Unsuccessful (s : State κ) (f : Nat) : Prop where
  found : ∃ flight, s.flights[f]? = some flight ∧ flight.template = none
  abandoned : ∀ (c : Nat) (x : Caller κ), s.callers[c]? = some x → x.stage.active ≠ some f

/-- A step leaves what a flight has published, unless it is the flight's own owner that publishes. -/
theorem flight_kept (h : Transition s t) (hf : Flying s) {f : Nat} {flight : Flight κ}
    (found : s.flights[f]? = some flight) :
    (∃ after, t.flights[f]? = some after ∧ after.template = flight.template) ∨
      ∃ (c : Nat) (x : Caller κ), s.callers[c]? = some x ∧ x.stage.active = some f ∧ flight.template = none := by
  cases h with
  | cold c x caller stage nobody expired =>
    exact Or.inl ⟨flight, Ledger.getElem?_concat_of_some found, rfl⟩
  | publish c x g a before caller stage hfound entry =>
    by_cases hfg : f = g
    · subst hfg
      have hactive : x.stage.active = some f := stage ▸ rfl
      exact Or.inr ⟨c, x, caller, hactive, hf.unpublished c x f flight caller hactive found⟩
    · exact Or.inl ⟨flight, (List.getElem?_set_ne (Ne.symm hfg)).trans found, rfl⟩
  | complete c x g a caller stage | completeDropped c x g caller stage =>
    refine Or.inl ?_
    show ∃ after, (s.completeFlight g).flights[f]? = some after ∧ _
    rw [State.completeFlight, List.getElem?_modify, found]
    exact ⟨_, rfl, by split <;> rfl⟩
  | _ => exact Or.inl ⟨flight, found, rfl⟩

theorem published_step (h : Transition s t) (hf : Flying s) {f a : Nat} (hp : s.Published f a) :
    t.Published f a := by
  obtain ⟨flight, found, htemplate⟩ := hp
  rcases flight_kept h hf found with ⟨after, hafter, hsame⟩ | ⟨_, _, _, _, hnone⟩
  · exact ⟨after, hafter, hsame.trans htemplate⟩
  · rw [hnone] at htemplate
    cases htemplate

/-- Whoever owns a flight owned it before, or has just started it. -/
theorem active_before (h : Transition s t) {c : Nat} {x : Caller κ} {f : Nat} (hc : t.callers[c]? = some x)
    (hactive : x.stage.active = some f) :
    (∃ y, s.callers[c]? = some y ∧ y.stage.active = some f) ∨ s.flights[f]? = none := by
  -- the call that moves, where its new stage is active for a flight of the old one
  have hmoved : ∀ {d : Nat} {y z : Caller κ}, t.callers = s.callers.set d z → s.callers[d]? = some y →
      (z.stage.active = some f → y.stage.active = some f) → ∃ y, s.callers[c]? = some y ∧ y.stage.active = some f := by
    intro d y z hcallers hd himp
    rw [hcallers] at hc
    rcases Ledger.getElem?_set_cases hc with ⟨rfl, rfl⟩ | ⟨_, hc⟩
    · exact ⟨y, hd, himp hactive⟩
    · exact ⟨x, hc, hactive⟩
  cases h with
  | call fingerprint =>
    rcases Ledger.getElem?_concat_cases hc with ⟨_, rfl⟩ | hc
    · cases hactive
    · exact Or.inl ⟨x, hc, hactive⟩
  | cold d y caller stage nobody expired =>
    rcases Ledger.getElem?_set_cases hc with ⟨rfl, rfl⟩ | ⟨_, hc⟩
    · cases hactive
      exact Or.inr (List.getElem?_eq_none (Nat.le_refl _))
    · exact Or.inl ⟨x, hc, hactive⟩
  | go d y stage caller rule => exact Or.inl (hmoved rfl caller fun h => rule.active.symm.trans h)
  | take d y g caller stage | taken d y g caller stage =>
    exact Or.inl (hmoved rfl caller fun h => by rw [stage]; exact h)
  | made d y g caller stage =>
    refine Or.inl (hmoved rfl caller fun h => ?_)
    rcases stage with stage | stage <;> rw [stage] <;> exact h
  | cloneHandle | dropHandle => exact Or.inl ⟨x, hc, hactive⟩
  | hit d y a caller | join d y g flight caller | read d y g flight a caller | publish d y g a flight caller
  | publishLost d y g a caller | release d y g caller | releaseLost d y g caller | complete d y g a caller
  | completeDropped d y g caller => exact Or.inl (hmoved rfl caller nofun)

theorem unsuccessful_step (h : Transition s t) (hf : Flying s) {f : Nat} (hu : s.Unsuccessful f) :
    t.Unsuccessful f := by
  obtain ⟨flight, found, hnone⟩ := hu.found
  refine ⟨?_, fun c x hc hactive => ?_⟩
  · rcases flight_kept h hf found with ⟨after, hafter, hsame⟩ | ⟨c, x, hc, hactive, _⟩
    · exact ⟨after, hafter, hsame.trans hnone⟩
    · exact absurd hactive (hu.abandoned c x hc)
  · rcases active_before h hc hactive with ⟨y, hy, hyactive⟩ | hnew
    · exact hu.abandoned c y hy hyactive
    · rw [found] at hnew
      cases hnew

/-- What an owner leaves behind that has published, or has given up. -/
structure Settled (s : State κ) : Prop where
  published : ∀ (c : Nat) (x : Caller κ) (f a : Nat), s.callers[c]? = some x → x.stage = .completing f a →
    s.Published f a
  dropped : ∀ (c : Nat) (x : Caller κ) (f : Nat), s.callers[c]? = some x → x.stage = .dropped f →
    s.Unsuccessful f

/-- The stages of an owner that has published, or given up, and is still to signal it. -/
def Stage.settled : Stage → Bool
  | .completing _ _ | .dropped _ => true
  | _ => false

/-- A step that settles nobody. -/
theorem Settled.keep (hs : Settled s) (hf : Flying s) (h : Transition s t)
    (callers : ∀ (c : Nat) (x : Caller κ), t.callers[c]? = some x → x.stage.settled = true →
      s.callers[c]? = some x) : Settled t where
  published c x f a hc hstage :=
    published_step h hf (hs.published c x f a (callers c x hc (hstage ▸ rfl)) hstage)
  dropped c x f hc hstage :=
    unsuccessful_step h hf (hs.dropped c x f (callers c x hc (hstage ▸ rfl)) hstage)

omit [DecidableEq κ] in
theorem Go.unsettled {stage next : Stage} (h : Go s stage next) : next.settled = false := by
  cases h <;> rfl

theorem settled_step (h : Transition s t) (hf : Flying s) (hs : Settled s) : Settled t := by
  -- a call that goes to a stage where nothing is settled
  have hmoved : ∀ {d : Nat} {z : Caller κ}, t.callers = s.callers.set d z → z.stage.settled = false →
      Settled t := by
    intro d z hcallers hz
    refine hs.keep hf h fun c x hc hx => ?_
    rw [hcallers] at hc
    rcases Ledger.getElem?_set_cases hc with ⟨_, rfl⟩ | ⟨_, hc⟩
    · rw [hz] at hx
      cases hx
    · exact hc
  have hstep := h
  cases h with
  | call fingerprint =>
    refine hs.keep hf hstep fun c x hc hx => ?_
    rcases Ledger.getElem?_concat_cases hc with ⟨_, rfl⟩ | hc
    · cases hx
    · exact hc
  | go d y stage caller rule => exact hmoved rfl rule.unsettled
  | publish d y g a flight caller stage found entry =>
    refine ⟨fun c x f b hc hstage => ?_, fun c x f hc hstage => ?_⟩
    · rcases Ledger.getElem?_set_cases hc with ⟨rfl, rfl⟩ | ⟨_, hc⟩
      · cases hstage
        exact ⟨_, Ledger.getElem?_set_of_some found, rfl⟩
      · exact published_step hstep hf (hs.published c x f b hc hstage)
    · rcases Ledger.getElem?_set_cases hc with ⟨rfl, rfl⟩ | ⟨_, hc⟩
      · cases hstage
      · exact unsuccessful_step hstep hf (hs.dropped c x f hc hstage)
  | publishLost d y g a caller stage lost => exact absurd (hf.entry_of_active caller (stage ▸ rfl)) lost
  | release d y g caller stage entry =>
    refine ⟨fun c x f b hc hstage => ?_, fun c x f hc hstage => ?_⟩
    · rcases Ledger.getElem?_set_cases hc with ⟨rfl, rfl⟩ | ⟨_, hc⟩
      · cases hstage
      · exact published_step hstep hf (hs.published c x f b hc hstage)
    · rcases Ledger.getElem?_set_cases hc with ⟨rfl, rfl⟩ | ⟨_, hc⟩
      · cases hstage
        obtain ⟨flight, found, _, hnone, _⟩ := hf.found entry
        refine ⟨⟨flight, found, hnone⟩, fun e z he hactive => ?_⟩
        rcases Ledger.getElem?_set_cases he with ⟨rfl, rfl⟩ | ⟨hne, he⟩
        · cases hactive
        · exact hne (hf.alone e c z y g he caller (owner_of_active hactive) (stage ▸ rfl))
      · exact unsuccessful_step hstep hf (hs.dropped c x f hc hstage)
  | releaseLost d y g caller stage lost => exact absurd (hf.entry_of_active caller (stage ▸ rfl)) lost
  | cloneHandle | dropHandle => exact hs.keep hf hstep fun c x hc _ => hc
  | hit | join | cold | read | take | taken | made | complete | completeDropped => exact hmoved rfl rfl

theorem settled (h : (machine κ).Reachable s) : Settled s := by
  have hinv : (machine κ).Invariant Settled := by
    refine ⟨?_, fun s a t hreach hs hstep => settled_step (step_transition s t a hstep) (flying hreach) hs⟩
    intro _ heq
    obtain rfl := heq
    exact ⟨nofun, nofun⟩
  exact hinv.holds h

/-- What a flight has published stays, whatever happens next. -/
theorem published_run (hs : (machine κ).Reachable s) {f a : Nat} (hp : s.Published f a) {actions : List (Action κ)}
    (hrun : (machine κ).run s actions = some t) : t.Published f a :=
  hs.run_related (R := fun _ t => t.Published f a) hp
    (fun u b v hu hp hstep => published_step (step_transition u v b hstep) (flying hu) hp) hrun

theorem unsuccessful_run (hs : (machine κ).Reachable s) {f : Nat} (hu : s.Unsuccessful f) {actions : List (Action κ)}
    (hrun : (machine κ).run s actions = some t) : t.Unsuccessful f :=
  hs.run_related (R := fun _ t => t.Unsuccessful f) hu
    (fun u b v hreach hu hstep => unsuccessful_step (step_transition u v b hstep) (flying hreach) hu) hrun

/-- What the template cache guarantees in every state of every run. -/
structure SingleFlight (s : State κ) : Prop where
  oneInitializer : ∀ (c d : Nat) (x y : Caller κ), s.callers[c]? = some x → s.callers[d]? = some y →
    x.stage.active ≠ none → y.stage.active ≠ none → x.fingerprint = y.fingerprint → c = d
  entry : ∀ k, (∃ f, s.entries k = some (.initializing f)) ↔
    ∃ (c : Nat) (x : Caller κ), s.callers[c]? = some x ∧ x.fingerprint = k ∧ x.stage.active ≠ none
  publish : ∀ (c : Nat) (x : Caller κ) (f a : Nat), s.callers[c]? = some x →
    x.stage = .publishing f a → s.entries x.fingerprint = some (.initializing f) ∧
      ∃ t, s.step (.publish c) = some t ∧ t.entries x.fingerprint = some (.ready a) ∧ t.Published f a
  /-- An owner that has published returns the template of its flight. -/
  completing : ∀ (c : Nat) (x : Caller κ) (f a : Nat), s.callers[c]? = some x → x.stage = .completing f a →
    s.Published f a ∧ ∃ t, s.step (.complete c) = some t ∧ t.callers[c]? = some { x with stage := .returned a }
  oneTemplate : ∀ (a b : Nat) (k : κ), s.live a = true → s.live b = true →
    s.fingerprintOf a = some k → s.fingerprintOf b = some k → a = b
  ready : ∀ (c : Nat) (x y : Caller κ) (a : Nat) (t : State κ), s.callers[c]? = some x →
    s.step (.decide c) = some t → t.callers[c]? = some y → y.stage = .returned a →
      s.live a = true ∧ s.fingerprintOf a = some x.fingerprint
  /-- A flight that has published keeps its template in every continuation, and that is the one its
  waiters return. -/
  successful : ∀ f a, s.Published f a → ∀ actions t, (machine κ).run s actions = some t → t.Published f a ∧
    ∀ (c : Nat) (x : Caller κ), t.callers[c]? = some x → x.stage = .woken f →
      ∃ u, t.step (.read c) = some u ∧ u.callers[c]? = some { x with stage := .returned a }
  /-- A flight that was given up stays without one, and sends its waiters back to the loop. -/
  unsuccessful : (∀ (c : Nat) (x : Caller κ) (f : Nat), s.callers[c]? = some x → x.stage = .dropped f →
      s.Unsuccessful f) ∧
    ∀ f, s.Unsuccessful f → ∀ actions t, (machine κ).run s actions = some t → t.Unsuccessful f ∧
      ∀ (c : Nat) (x : Caller κ), t.callers[c]? = some x → x.stage = .woken f →
        ∃ u, t.step (.read c) = some u ∧ u.callers[c]? = some { x with stage := .deciding }
  waiter : ∀ (c : Nat) (x : Caller κ) (f a : Nat) (flight : Flight κ), s.callers[c]? = some x →
    x.stage.flight = some f → s.flights[f]? = some flight → flight.template = some a →
      s.live a = true ∧ s.fingerprintOf a = some x.fingerprint
  woken : ∀ (c : Nat) (x : Caller κ) (f : Nat), s.callers[c]? = some x → x.stage.awaits = some f →
    (∀ (d : Nat) (y : Caller κ), s.callers[d]? = some y → y.stage.owner ≠ some f) →
      ∃ flight t, s.flights[f]? = some flight ∧
        ((machine κ).run s [.borrow c, .read c] = some t ∨
          (machine κ).run s [.changed c, .read c] = some t) ∧
        t.callers[c]? = some { x with stage := flight.template.elim .deciding .returned }
  pruned : ∀ (c : Nat) (t : State κ), s.step (.decide c) = some t → ∀ k,
    (∀ f, s.entries k = some (.initializing f) → t.entries k = s.entries k) ∧
      ∀ a, s.entries k = some (.ready a) → s.live a = true → t.entries k = s.entries k
  consumed : ∀ (c : Nat) (x : Caller κ), s.callers[c]? = some x → x.consumed ≤ 1
  expect : s.expectFailed = false
  asserts : s.assertsHeld = true

/-- What `template_cache_action` leaves of the entries, and whom it returns. -/
theorem decide_step (h : s.step (.decide c) = some t) (hc : s.callers[c]? = some x) :
    (∃ a, s.entries x.fingerprint = some (.ready a) ∧ s.live a = true ∧ t.entries = s.entries ∧
      t.callers[c]? = some { x with stage := .returned a }) ∨
    (t.entries = s.entries ∧ ∃ f n, t.callers[c]? = some { x with stage := .waiting f n }) ∨
    ((∀ f, s.entries x.fingerprint ≠ some (.initializing f)) ∧
      (∀ a, s.entries x.fingerprint = some (.ready a) → s.live a = false) ∧ t = s.startFlight c x) := by
  simp only [State.step, State.templateCacheAction, hc] at h
  split at h
  · cases h
  · split at h
    · rename_i a entry
      split at h
      · rename_i alive
        cases h
        exact Or.inl ⟨a, entry, alive, rfl, Ledger.getElem?_set_of_some hc⟩
      · rename_i expired
        cases h
        refine Or.inr (Or.inr ⟨fun f hf => ?_, fun b hb => ?_, rfl⟩)
        · rw [entry] at hf
          cases hf
        · rw [entry, Option.some.injEq, Entry.ready.injEq] at hb
          exact hb ▸ Bool.not_eq_true _ ▸ expired
    · rename_i f entry
      split at h
      · cases h
        exact Or.inr (Or.inl ⟨rfl, f, _, Ledger.getElem?_set_of_some hc⟩)
      · cases h
    · rename_i entry
      cases h
      refine Or.inr (Or.inr ⟨fun f hf => ?_, fun b hb => ?_, rfl⟩)
      · rw [entry] at hf
        cases hf
      · rw [entry] at hb
        cases hb

/-- A cold acquisition leaves running flights and live templates of every fingerprint. -/
theorem startFlight_entries (nobody : ∀ f, s.entries x.fingerprint ≠ some (.initializing f))
    (expired : ∀ a, s.entries x.fingerprint = some (.ready a) → s.live a = false) (k : κ) :
    (∀ f, s.entries k = some (.initializing f) → (s.startFlight c x).entries k = s.entries k) ∧
      ∀ a, s.entries k = some (.ready a) → s.live a = true →
        (s.startFlight c x).entries k = s.entries k := by
  have hentries : (s.startFlight c x).entries k = Function.update s.pruneExpiredReadyEntries
    x.fingerprint (some (.initializing s.flights.length)) k := rfl
  rw [hentries]
  refine ⟨fun f hk => ?_, fun a hk hlive => ?_⟩
  · have hkx : k ≠ x.fingerprint := fun hkx => nobody f (hkx ▸ hk)
    rw [Function.update_of_ne hkx, hk, prune_initializing, hk]
  · have hkx : k ≠ x.fingerprint := fun hkx => by
      rw [expired a (hkx ▸ hk)] at hlive
      cases hlive
    rw [Function.update_of_ne hkx, State.pruneExpiredReadyEntries, hk]
    exact if_pos hlive

/-- In every reachable state each fingerprint has at most one initializer and at most one live
template; what a flight publishes is what all its waiters get; a flight that is over has woken its
waiters; pruning takes no running flight and no live template; and no closure is called twice. -/
theorem single_flight (s : State κ) (hs : (machine κ).Reachable s) : SingleFlight s := by
  have hf := flying hs
  have hcurrent := current hs
  have huntaken := untaken hs
  refine ⟨fun c d x y hc hd hx hy hxy => ?_, fun k => ⟨?_, ?_⟩, fun c x f a hc hstage => ?_,
    fun c x f a hc hstage => ?_, fun a b k => hcurrent.unique hf, fun c x y a t hc hstep hy hstage => ?_,
    fun f a hp actions t hrun => ⟨published_run hs hp hrun, fun c x hc hstage => ?_⟩,
    ⟨(settled hs).dropped, fun f hu actions t hrun => ⟨unsuccessful_run hs hu hrun, fun c x hc hstage => ?_⟩⟩,
    fun c x f a flight hc hflight found htemplate => ?_, fun c x f hc => hf.wakes hc,
    fun c t hstep k => ?_, huntaken.consumed, huntaken.expect, huntaken.asserts⟩
  · obtain ⟨f, hx⟩ := Option.ne_none_iff_exists'.mp hx
    obtain ⟨g, hy⟩ := Option.ne_none_iff_exists'.mp hy
    have hentry := hf.entry_of_active hc hx
    rw [hxy, hf.entry_of_active hd hy, Option.some.injEq, Entry.initializing.injEq] at hentry
    exact hf.alone c d x y f hc hd (owner_of_active hx) (hentry ▸ owner_of_active hy)
  · intro hparts
    obtain ⟨f, hk⟩ := hparts
    obtain ⟨c, x, hc, hx, hactive⟩ := (hf.entry k f).mp hk
    exact ⟨c, x, hc, hx, Option.ne_none_iff_exists'.mpr ⟨f, hactive⟩⟩
  · intro hparts
    obtain ⟨c, x, hc, hx, hactive⟩ := hparts
    obtain ⟨f, hactive⟩ := Option.ne_none_iff_exists'.mp hactive
    exact ⟨f, hx ▸ hf.entry_of_active hc hactive⟩
  · have hentry := hf.entry_of_active hc (hstage ▸ rfl : x.stage.active = some f)
    obtain ⟨flight, found, _⟩ := hf.found hentry
    refine ⟨hentry, ?_⟩
    simp only [State.step, State.publish, hc, hstage, found, hentry, if_true]
    exact ⟨_, rfl, Function.update_self .., _, Ledger.getElem?_set_of_some found, rfl⟩
  · refine ⟨(settled hs).published c x f a hc hstage, ((s.completeFlight f).addHandle a).setStage c x (.returned a), ?_,
      Ledger.getElem?_set_of_some hc⟩
    simp only [State.step, State.complete, hc, hstage]
  · rcases decide_step hstep hc with ⟨b, hentry, hlive, _, hcaller⟩ | ⟨_, f, n, hcaller⟩ | ⟨_, _, rfl⟩
    · rw [hy, Option.some.injEq] at hcaller
      rw [hcaller, Stage.returned.injEq] at hstage
      exact hstage ▸ ⟨hlive, hcurrent.ready _ b hentry⟩
    · rw [hy, Option.some.injEq] at hcaller
      rw [hcaller] at hstage
      cases hstage
    · have hcaller : (s.startFlight c x).callers[c]? =
          some { x with stage := Stage.preparing s.flights.length } := Ledger.getElem?_set_of_some hc
      rw [hy, Option.some.injEq] at hcaller
      rw [hcaller] at hstage
      cases hstage
  · obtain ⟨flight, found, htemplate⟩ := published_run hs hp hrun
    obtain ⟨u, hread, hu⟩ := read_step hc hstage found
    exact ⟨u, hread, by rw [hu, htemplate]; rfl⟩
  · obtain ⟨flight, found, hnone⟩ := (unsuccessful_run hs hu hrun).found
    obtain ⟨u, hread, hu⟩ := read_step hc hstage found
    exact ⟨u, hread, by rw [hu, hnone]; rfl⟩
  · obtain ⟨_, hknown, hfingerprint⟩ := hf.known c x f hc hflight
    obtain rfl := Option.some.inj (found.symm.trans hknown)
    exact ⟨live_of_flight found htemplate hc hflight,
      hfingerprint ▸ hcurrent.published f flight a found htemplate⟩
  · cases hc : s.callers[c]? with
    | none =>
      simp only [State.step, State.templateCacheAction, hc] at hstep
      cases hstep
    | some x =>
      rcases decide_step hstep hc with ⟨_, _, _, hsame, _⟩ | ⟨hsame, _⟩ | ⟨nobody, expired, rfl⟩
      · exact ⟨fun _ _ => congrFun hsame k, fun _ _ _ => congrFun hsame k⟩
      · exact ⟨fun _ _ => congrFun hsame k, fun _ _ _ => congrFun hsame k⟩
      · exact startFlight_entries nobody expired k

/-- Two calls join the flight of a third, which fails; one of them then owns the next
flight, publishes, and loses its handle while the other is still waiting. -/
def failedThenPublished : List (Action Nat) :=
  [.call 7, .decide 0, .call 7, .decide 1, .call 7, .decide 2, .prepared 0 false, .initialized 0 false,
    .abandon 0, .releaseEntry 0, .complete 0, .borrow 1, .read 1, .borrow 2, .read 2, .decide 1,
    .decide 2, .borrow 2, .prepared 1 false, .initialized 1 true, .finished 1, .publish 1, .complete 1,
    .dropHandle 0]

/-- Both of them return the one template that was published. -/
theorem single_flight_waiting : ∃ s t, (machine Nat).run State.initial failedThenPublished = some s ∧
    s.live 0 = true ∧ SingleFlight s ∧ (machine Nat).run s [.changed 2, .read 2] = some t ∧
    t.callers.map (·.stage) = [.failed, .returned 0, .returned 0] := by
  refine ⟨_, _, rfl, by decide, ?_, rfl, by decide⟩
  exact single_flight _ (Machine.reachable_of_run failedThenPublished rfl rfl)

end Effects

end Live

end PostgresTestHarness.TemplateCache
