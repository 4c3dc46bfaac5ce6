import PostgresTestHarness.Library.Ledger
import PostgresTestHarness.TemplateCache.System

/-! One active initializer for each fingerprint.

An `Initializing` entry stands for exactly one owner whose guard is active, and a flight
that has not completed still has an owner to complete it (`Flying`). -/
namespace PostgresTestHarness.TemplateCache

variable {κ : Type}

/-- Flights, their owners and the entries that stand for them. -/
structure Flying (s : State κ) : Prop where
  known : ∀ (c : Nat) (x : Caller κ) (f : Nat), s.callers[c]? = some x → x.stage.flight = some f →
    ∃ flight, s.flights[f]? = some flight ∧ flight.fingerprint = x.fingerprint
  entry : ∀ k f, s.entries k = some (.initializing f) ↔
    ∃ (c : Nat) (x : Caller κ), s.callers[c]? = some x ∧ x.fingerprint = k ∧ x.stage.active = some f
  alone : ∀ (c d : Nat) (x y : Caller κ) (f : Nat), s.callers[c]? = some x → s.callers[d]? = some y →
    x.stage.owner = some f → y.stage.owner = some f → c = d
  unpublished : ∀ (c : Nat) (x : Caller κ) (f : Nat) (flight : Flight κ), s.callers[c]? = some x →
    x.stage.active = some f → s.flights[f]? = some flight → flight.template = none
  running : ∀ (f : Nat) (flight : Flight κ), s.flights[f]? = some flight → flight.completed = false →
    ∃ (c : Nat) (x : Caller κ), s.callers[c]? = some x ∧ x.stage.owner = some f
  owned : ∀ (c : Nat) (x : Caller κ) (f : Nat) (flight : Flight κ), s.callers[c]? = some x →
    x.stage.owner = some f → s.flights[f]? = some flight → flight.completed = false
  version : ∀ (f : Nat) (flight : Flight κ), s.flights[f]? = some flight →
    (flight.completed = true ↔ flight.version ≠ 0)
  seen : ∀ (c : Nat) (x : Caller κ) (f n : Nat), s.callers[c]? = some x →
    x.stage = .waiting f n ∨ x.stage = .changing f n → n = 0

section Stages
variable {stage next : Stage} {f : Nat}

theorem owner_of_active (h : stage.active = some f) : stage.owner = some f := by
  cases stage <;> first | exact h | cases h

theorem flight_of_owner (h : stage.owner = some f) : stage.flight = some f := by
  cases stage <;> first | exact h | cases h

theorem Go.active {s : State κ} (h : Go s stage next) : next.active = stage.active := by
  cases h <;> rfl

theorem Go.owner {s : State κ} (h : Go s stage next) : next.owner = stage.owner := by
  cases h <;> rfl

theorem Go.flight {s : State κ} (h : Go s stage next) (hf : next.flight = some f) :
    stage.flight = some f := by
  cases h <;> first | exact hf | cases hf

theorem Go.held {s : State κ} (h : Go s stage next) : next.held = none := by
  cases h <;> rfl

end Stages

section Flying
variable {s t : State κ} {c : Nat} {x : Caller κ}

/-- The flight of an entry belongs to the entry's fingerprint and has published nothing. -/
theorem Flying.found (hs : Flying s) {k : κ} {f : Nat} (h : s.entries k = some (.initializing f)) :
    ∃ flight, s.flights[f]? = some flight ∧ flight.fingerprint = k ∧ flight.template = none ∧
      flight.completed = false := by
  obtain ⟨c, x, hc, hk, hactive⟩ := (hs.entry k f).mp h
  have howner := owner_of_active hactive
  obtain ⟨flight, hflight, hfingerprint⟩ := hs.known c x f hc (flight_of_owner howner)
  exact ⟨flight, hflight, hfingerprint.trans hk, hs.unpublished c x f flight hc hactive hflight,
    hs.owned c x f flight hc howner hflight⟩

theorem Flying.entry_of_active (hs : Flying s) {f : Nat} (hc : s.callers[c]? = some x)
    (h : x.stage.active = some f) : s.entries x.fingerprint = some (.initializing f) :=
  (hs.entry _ f).mpr ⟨c, x, hc, rfl, h⟩

/-- A call that stays the owner it was, or none. -/
theorem Flying.move (hs : Flying s) (hc : s.callers[c]? = some x) (y : Caller κ)
    (callers : t.callers = s.callers.set c y) (entries : t.entries = s.entries)
    (flights : t.flights = s.flights) (fingerprint : y.fingerprint = x.fingerprint)
    (active : y.stage.active = x.stage.active) (owner : y.stage.owner = x.stage.owner)
    (flight : ∀ f, y.stage.flight = some f →
      ∃ flight, s.flights[f]? = some flight ∧ flight.fingerprint = x.fingerprint)
    (seen : ∀ f n, y.stage = .waiting f n ∨ y.stage = .changing f n → n = 0) : Flying t := by
  have hself : t.callers[c]? = some y := by rw [callers, Ledger.getElem?_set_of_some hc]
  have hother : ∀ {d : Nat}, d ≠ c → t.callers[d]? = s.callers[d]? := fun hne => by
    rw [callers, List.getElem?_set_ne (Ne.symm hne)]
  -- every call of the state after it has a counterpart with the same part in the flights
  have hback : ∀ {d : Nat} {z : Caller κ}, t.callers[d]? = some z →
      ∃ w, s.callers[d]? = some w ∧ w.fingerprint = z.fingerprint ∧ w.stage.active = z.stage.active ∧
        w.stage.owner = z.stage.owner := by
    intro d z hz
    rw [callers] at hz
    rcases Ledger.getElem?_set_cases hz with ⟨rfl, rfl⟩ | ⟨_, hz⟩
    · exact ⟨x, hc, fingerprint.symm, active.symm, owner.symm⟩
    · exact ⟨z, hz, rfl, rfl, rfl⟩
  have hforth : ∀ {d : Nat} {w : Caller κ}, s.callers[d]? = some w →
      ∃ z, t.callers[d]? = some z ∧ w.fingerprint = z.fingerprint ∧ w.stage.active = z.stage.active ∧
        w.stage.owner = z.stage.owner := by
    intro d w hw
    by_cases hdc : d = c
    · subst hdc
      rw [hc, Option.some.injEq] at hw
      exact ⟨y, hself, hw ▸ fingerprint.symm, hw ▸ active.symm, hw ▸ owner.symm⟩
    · exact ⟨w, (hother hdc).trans hw, rfl, rfl, rfl⟩
  refine ⟨fun d z f hz hf => ?_, fun k f => ?_, fun d e z w f hz hw hzf hwf => ?_,
    fun d z f fl hz hf hfl => ?_, fun f fl hfl hrunning => ?_, fun d z f fl hz hf hfl => ?_,
    fun f fl hfl => hs.version f fl (flights ▸ hfl), fun d z f n hz hstage => ?_⟩
  · rw [flights]
    rw [callers] at hz
    rcases Ledger.getElem?_set_cases hz with ⟨rfl, rfl⟩ | ⟨_, hz⟩
    · rw [fingerprint]
      exact flight f hf
    · exact hs.known d z f hz hf
  · rw [entries, hs.entry k f]
    constructor
    · intro hparts
      obtain ⟨d, w, hw, hk, hactive⟩ := hparts
      obtain ⟨z, hz, hfp, ha, _⟩ := hforth hw
      exact ⟨d, z, hz, hfp.symm.trans hk, ha.symm.trans hactive⟩
    · intro hparts
      obtain ⟨d, z, hz, hk, hactive⟩ := hparts
      obtain ⟨w, hw, hfp, ha, _⟩ := hback hz
      exact ⟨d, w, hw, hfp.trans hk, ha.trans hactive⟩
  · obtain ⟨z', hz', _, _, hzo⟩ := hback hz
    obtain ⟨w', hw', _, _, hwo⟩ := hback hw
    exact hs.alone d e z' w' f hz' hw' (hzo.trans hzf) (hwo.trans hwf)
  · obtain ⟨z', hz', _, hza, _⟩ := hback hz
    exact hs.unpublished d z' f fl hz' (hza.trans hf) (flights ▸ hfl)
  · obtain ⟨d, w, hw, hwf⟩ := hs.running f fl (flights ▸ hfl) hrunning
    obtain ⟨z, hz, _, _, hzo⟩ := hforth hw
    exact ⟨d, z, hz, hzo.symm.trans hwf⟩
  · obtain ⟨z', hz', _, _, hzo⟩ := hback hz
    exact hs.owned d z' f fl hz' (hzo.trans hf) (flights ▸ hfl)
  · rw [callers] at hz
    rcases Ledger.getElem?_set_cases hz with ⟨rfl, rfl⟩ | ⟨_, hz⟩
    · exact seen f n hstage
    · exact hs.seen d z f n hz hstage

/-- Pruning removes no flight and starts none. -/
theorem prune_initializing (s : State κ) (k : κ) (f : Nat) :
    s.pruneExpiredReadyEntries k = some (.initializing f) ↔ s.entries k = some (.initializing f) := by
  unfold State.pruneExpiredReadyEntries
  cases hk : s.entries k with
  | none => exact Iff.rfl
  | some entry =>
    cases entry with
    | initializing g => exact Iff.rfl
    | ready a =>
      by_cases halive : s.live a = true
      · simp [halive]
      · simp [Bool.not_eq_true _ ▸ halive]

/-- A call that arrives has no part in any flight. -/
theorem Flying.arrive (hs : Flying s) (fingerprint : κ) :
    Flying { s with callers := s.callers ++ [⟨fingerprint, true, 0, .deciding⟩] } := by
  refine ⟨fun d y g hd hg => ?_, fun k g => ?_, fun d e y z g hd he hy hz => ?_,
    fun d y g flight hd hg hfound => ?_, fun g flight hfound hrunning => ?_,
    fun d y g flight hd hg hfound => ?_, hs.version, fun d y g n hd hstage => ?_⟩
  · rcases Ledger.getElem?_concat_cases hd with ⟨_, rfl⟩ | hd'
    · cases hg
    · exact hs.known d y g hd' hg
  · rw [hs.entry]
    constructor
    · intro hparts
      obtain ⟨d, y, hd, hy, hyactive⟩ := hparts
      exact ⟨d, y, Ledger.getElem?_concat_of_some hd, hy, hyactive⟩
    · intro hparts
      obtain ⟨d, y, hd, hy, hyactive⟩ := hparts
      rcases Ledger.getElem?_concat_cases hd with ⟨_, rfl⟩ | hd'
      · cases hyactive
      · exact ⟨d, y, hd', hy, hyactive⟩
  · rcases Ledger.getElem?_concat_cases hd with ⟨_, rfl⟩ | hd'
    · cases hy
    · rcases Ledger.getElem?_concat_cases he with ⟨_, rfl⟩ | he'
      · cases hz
      · exact hs.alone d e y z g hd' he' hy hz
  · rcases Ledger.getElem?_concat_cases hd with ⟨_, rfl⟩ | hd'
    · cases hg
    · exact hs.unpublished d y g flight hd' hg hfound
  · obtain ⟨d, y, hd, hy⟩ := hs.running g flight hfound hrunning
    exact ⟨d, y, Ledger.getElem?_concat_of_some hd, hy⟩
  · rcases Ledger.getElem?_concat_cases hd with ⟨_, rfl⟩ | hd'
    · cases hg
    · exact hs.owned d y g flight hd' hg hfound
  · rcases Ledger.getElem?_concat_cases hd with ⟨_, rfl⟩ | hd'
    · rcases hstage with hstage | hstage <;> cases hstage
    · exact hs.seen d y g n hd' hstage

theorem Go.seen {stage next : Stage} (hs : Flying s) (h : Go s stage next) (hc : s.callers[c]? = some x)
    (hstage : x.stage = stage) {f n : Nat} (hn : next = .waiting f n ∨ next = .changing f n) : n = 0 := by
  cases h with
  | listens g seen flight found running =>
    rcases hn with hn | hn
    · cases hn
    · cases hn
      exact hs.seen c x f n hc (Or.inl hstage)
  | _ => rcases hn with hn | hn <;> cases hn

theorem completeFlight_cases {f g : Nat} {flight : Flight κ}
    (h : (s.completeFlight f).flights[g]? = some flight) :
    (g = f ∧ flight.completed = true ∧ ∃ before, s.flights[g]? = some before ∧
      flight = { before with completed := true, version := before.version + 1 }) ∨
    (g ≠ f ∧ s.flights[g]? = some flight) := by
  have h : (s.flights.modify f fun flight =>
    { flight with completed := true, version := flight.version + 1 })[g]? = some flight := h
  rw [List.getElem?_modify, Option.map_eq_map, Option.map_eq_some_iff] at h
  obtain ⟨before, hbefore, rfl⟩ := h
  by_cases hgf : f = g
  · rw [if_pos hgf]
    exact Or.inl ⟨hgf.symm, rfl, before, hbefore, rfl⟩
  · rw [if_neg hgf]
    exact Or.inr ⟨Ne.symm hgf, hbefore⟩

section Effects
variable [DecidableEq κ]

/-- A new flight takes the place of an entry that was none. -/
theorem Flying.start (hs : Flying s) (hc : s.callers[c]? = some x) (stage : x.stage = .deciding)
    (nobody : ∀ f, s.entries x.fingerprint ≠ some (.initializing f)) :
    Flying (s.startFlight c x) := by
  have hnew : ∀ (d : Nat) (y : Caller κ), s.callers[d]? = some y →
      y.stage.flight ≠ some s.flights.length := by
    intro d y hd hf
    obtain ⟨flight, hflight, _⟩ := hs.known d y _ hd hf
    exact Nat.lt_irrefl _ (List.getElem?_eq_some_iff.mp hflight).1
  have hself : (s.startFlight c x).callers[c]? =
      some { x with stage := Stage.preparing s.flights.length } := Ledger.getElem?_set_of_some hc
  have hforth : ∀ {d : Nat} {y : Caller κ} {f : Nat}, s.callers[d]? = some y →
      y.stage.owner = some f → (s.startFlight c x).callers[d]? = some y := by
    intro d y f hd hf
    have hdc : d ≠ c := fun hdc => by
      rw [hdc, hc, Option.some.injEq] at hd
      rw [← hd, stage] at hf
      cases hf
    exact (List.getElem?_set_ne (Ne.symm hdc)).trans hd
  refine ⟨fun d y f hd hf => ?_, fun k f => ⟨fun hk => ?_, ?_⟩, fun d e y z f hd he hy hz => ?_,
    fun d y f flight hd hf hflight => ?_, fun f flight hflight hrunning => ?_,
    fun d y f flight hd hf hflight => ?_, fun f flight hflight => ?_, fun d y f n hd hstage => ?_⟩
  · rcases Ledger.getElem?_set_cases hd with ⟨rfl, rfl⟩ | ⟨_, hd⟩
    · cases hf
      exact ⟨_, List.getElem?_concat_length, rfl⟩
    · obtain ⟨flight, hflight, hfingerprint⟩ := hs.known d y f hd hf
      exact ⟨flight, Ledger.getElem?_concat_of_some hflight, hfingerprint⟩
  · have hk : Function.update s.pruneExpiredReadyEntries x.fingerprint
      (some (.initializing s.flights.length)) k = some (.initializing f) := hk
    by_cases hkx : k = x.fingerprint
    · rw [hkx, Function.update_self, Option.some.injEq, Entry.initializing.injEq] at hk
      exact ⟨c, _, hself, hkx.symm, congrArg some hk⟩
    · rw [Function.update_of_ne hkx, prune_initializing, hs.entry] at hk
      obtain ⟨d, y, hd, hy, hactive⟩ := hk
      exact ⟨d, y, hforth hd (owner_of_active hactive), hy, hactive⟩
  · intro hparts
    obtain ⟨d, y, hd, hy, hactive⟩ := hparts
    show Function.update s.pruneExpiredReadyEntries x.fingerprint
      (some (.initializing s.flights.length)) k = some (.initializing f)
    rcases Ledger.getElem?_set_cases hd with ⟨rfl, rfl⟩ | ⟨_, hd⟩
    · cases hactive
      rw [← hy]
      exact Function.update_self ..
    · have hentry := hs.entry_of_active hd hactive
      have hkx : k ≠ x.fingerprint := fun hkx => nobody f (by rw [← hkx, ← hy, hentry])
      rw [Function.update_of_ne hkx, prune_initializing, ← hy, hentry]
  · rcases Ledger.getElem?_set_cases hd with ⟨rfl, rfl⟩ | ⟨_, hd'⟩
    · rcases Ledger.getElem?_set_cases he with ⟨rfl, _⟩ | ⟨_, he'⟩
      · rfl
      · cases hy
        exact absurd (flight_of_owner hz) (hnew e z he')
    · rcases Ledger.getElem?_set_cases he with ⟨rfl, rfl⟩ | ⟨_, he'⟩
      · cases hz
        exact absurd (flight_of_owner hy) (hnew d y hd')
      · exact hs.alone d e y z f hd' he' hy hz
  · rcases Ledger.getElem?_concat_cases hflight with ⟨_, rfl⟩ | hbefore
    · rfl
    · rcases Ledger.getElem?_set_cases hd with ⟨rfl, rfl⟩ | ⟨_, hd'⟩
      · cases hf
        exact absurd (List.getElem?_eq_some_iff.mp hbefore).1 (Nat.lt_irrefl _)
      · exact hs.unpublished d y f flight hd' hf hbefore
  · rcases Ledger.getElem?_concat_cases hflight with ⟨rfl, rfl⟩ | hflight
    · exact ⟨c, _, hself, rfl⟩
    · obtain ⟨d, y, hd, hy⟩ := hs.running f flight hflight hrunning
      exact ⟨d, y, hforth hd hy, hy⟩
  · rcases Ledger.getElem?_concat_cases hflight with ⟨_, rfl⟩ | hbefore
    · rfl
    · rcases Ledger.getElem?_set_cases hd with ⟨rfl, rfl⟩ | ⟨_, hd'⟩
      · cases hf
        exact absurd (List.getElem?_eq_some_iff.mp hbefore).1 (Nat.lt_irrefl _)
      · exact hs.owned d y f flight hd' hf hbefore
  · rcases Ledger.getElem?_concat_cases hflight with ⟨_, rfl⟩ | hbefore
    · exact iff_of_false Bool.false_ne_true fun h => h rfl
    · exact hs.version f flight hbefore
  · rcases Ledger.getElem?_set_cases hd with ⟨rfl, rfl⟩ | ⟨_, hd⟩
    · rcases hstage with hstage | hstage <;> cases hstage
    · exact hs.seen d y f n hd hstage

/-- The owner of an entry replaces it by something else, and is its owner no longer. -/
theorem Flying.settle (hs : Flying s) {f : Nat} (hc : s.callers[c]? = some x)
    (hactive : x.stage.active = some f) (stage : Stage) (entry : Option Entry)
    (flights : List (Flight κ)) (hinactive : stage.active = none) (howner : stage.owner = some f)
    (hentry : ∀ g, entry ≠ some (.initializing g))
    (hflights : ∀ (g : Nat) (flight : Flight κ), flights[g]? = some flight →
      ∃ before, s.flights[g]? = some before ∧ before.fingerprint = flight.fingerprint ∧
        before.completed = flight.completed ∧ before.version = flight.version ∧
          (g ≠ f → before.template = flight.template))
    (hkept : ∀ (g : Nat) (before : Flight κ), s.flights[g]? = some before →
      ∃ flight, flights[g]? = some flight ∧ flight.fingerprint = before.fingerprint) :
    Flying ({ s with entries := Function.update s.entries x.fingerprint entry, flights }.setStage c x
      stage) := by
  have hxowner := owner_of_active hactive
  have hxentry := hs.entry_of_active hc hactive
  have hself : ({ s with entries := Function.update s.entries x.fingerprint entry, flights }.setStage c x
      stage).callers[c]? = some { x with stage } := Ledger.getElem?_set_of_some hc
  have hother : ∀ {d : Nat}, d ≠ c → ({ s with
      entries := Function.update s.entries x.fingerprint entry, flights }.setStage c x
        stage).callers[d]? = s.callers[d]? := fun hne => List.getElem?_set_ne (Ne.symm hne)
  have hseen : ∀ g n, ¬ (stage = .waiting g n ∨ stage = .changing g n) := by
    rintro g n (rfl | rfl) <;> cases howner
  have hflight : stage.flight = some f := flight_of_owner howner
  refine ⟨fun d y g hd hg => ?_, fun k g => ⟨fun hk => ?_, ?_⟩, fun d e y z g hd he hy hz => ?_,
    fun d y g flight hd hg hfound => ?_, fun g flight hfound hrunning => ?_,
    fun d y g flight hd hg hfound => ?_, fun g flight hfound => ?_, fun d y g n hd hstage => ?_⟩
  · have hbefore : ∃ before, s.flights[g]? = some before ∧ before.fingerprint = y.fingerprint := by
      rcases Ledger.getElem?_set_cases hd with ⟨rfl, rfl⟩ | ⟨_, hd⟩
      · obtain rfl : f = g := Option.some.inj (hflight.symm.trans hg)
        exact hs.known d x f hc (flight_of_owner hxowner)
      · exact hs.known d y g hd hg
    obtain ⟨before, hfound, hfingerprint⟩ := hbefore
    obtain ⟨flight, hflight, hsame⟩ := hkept g before hfound
    exact ⟨flight, hflight, hsame.trans hfingerprint⟩
  · have hk : Function.update s.entries x.fingerprint entry k = some (.initializing g) := hk
    by_cases hkx : k = x.fingerprint
    · rw [hkx, Function.update_self] at hk
      exact absurd hk (hentry g)
    · rw [Function.update_of_ne hkx, hs.entry] at hk
      obtain ⟨d, y, hd, hy, hyactive⟩ := hk
      have hdc : d ≠ c := fun hdc => by
        rw [hdc, hc, Option.some.injEq] at hd
        exact hkx (hy.symm.trans (congrArg Caller.fingerprint hd.symm))
      exact ⟨d, y, (hother hdc).trans hd, hy, hyactive⟩
  · intro hparts
    obtain ⟨d, y, hd, hy, hyactive⟩ := hparts
    show Function.update s.entries x.fingerprint entry k = some (.initializing g)
    rcases Ledger.getElem?_set_cases hd with ⟨rfl, rfl⟩ | ⟨hdc, hd⟩
    · have hnone : stage.active = some g := hyactive
      rw [hinactive] at hnone
      cases hnone
    · have hyentry := hs.entry_of_active hd hyactive
      have hkx : k ≠ x.fingerprint := fun hkx => by
        rw [hy, hkx, hxentry, Option.some.injEq, Entry.initializing.injEq] at hyentry
        exact hdc (hs.alone d c y x g hd hc (owner_of_active hyactive) (hyentry ▸ hxowner))
      rw [Function.update_of_ne hkx, ← hy, hyentry]
  · have hold : ∀ {d : Nat} {y : Caller κ}, ({ s with
        entries := Function.update s.entries x.fingerprint entry, flights }.setStage c x
          stage).callers[d]? = some y → y.stage.owner = some g →
            ∃ w, s.callers[d]? = some w ∧ w.stage.owner = some g := by
      intro d y hd hy
      rcases Ledger.getElem?_set_cases hd with ⟨rfl, rfl⟩ | ⟨_, hd⟩
      · exact ⟨x, hc, hxowner.trans (howner.symm.trans hy)⟩
      · exact ⟨y, hd, hy⟩
    obtain ⟨y', hd', hy'⟩ := hold hd hy
    obtain ⟨z', he', hz'⟩ := hold he hz
    exact hs.alone d e y' z' g hd' he' hy' hz'
  · rcases Ledger.getElem?_set_cases hd with ⟨rfl, rfl⟩ | ⟨hdc, hd⟩
    · have hnone : stage.active = some g := hg
      rw [hinactive] at hnone
      cases hnone
    · obtain ⟨before, hbefore, _, _, _, htemplate⟩ := hflights g flight hfound
      have hgf : g ≠ f := fun hgf =>
        hdc (hs.alone d c y x g hd hc (owner_of_active hg) (hgf ▸ hxowner))
      rw [← htemplate hgf]
      exact hs.unpublished d y g before hd hg hbefore
  · obtain ⟨before, hbefore, _, hcompleted, _⟩ := hflights g flight hfound
    obtain ⟨d, y, hd, hy⟩ := hs.running g before hbefore (hcompleted.trans hrunning)
    by_cases hdc : d = c
    · subst hdc
      rw [hc, Option.some.injEq] at hd
      refine ⟨d, _, hself, ?_⟩
      rw [← hd, hxowner] at hy
      exact howner.trans hy
    · exact ⟨d, y, (hother hdc).trans hd, hy⟩
  · obtain ⟨before, hbefore, _, hcompleted, _⟩ := hflights g flight hfound
    rw [← hcompleted]
    rcases Ledger.getElem?_set_cases hd with ⟨rfl, rfl⟩ | ⟨_, hd⟩
    · obtain rfl : f = g := Option.some.inj (howner.symm.trans hg)
      exact hs.owned d x f before hc hxowner hbefore
    · exact hs.owned d y g before hd hg hbefore
  · obtain ⟨before, hbefore, _, hcompleted, hversion, _⟩ := hflights g flight hfound
    rw [← hcompleted, ← hversion]
    exact hs.version g before hbefore
  · rcases Ledger.getElem?_set_cases hd with ⟨rfl, rfl⟩ | ⟨_, hd⟩
    · exact absurd hstage (hseen g n)
    · exact hs.seen d y g n hd hstage

omit [DecidableEq κ] in
/-- The owner signals its channel and is done. -/
theorem Flying.finish (hs : Flying s) {f : Nat} (hc : s.callers[c]? = some x)
    (howner : x.stage.owner = some f) (hactive : x.stage.active = none) (stage : Stage)
    (hdone : stage.flight = none) : Flying ((s.completeFlight f).setStage c x stage) := by
  have hnone : stage.owner = none := by
    cases ho : stage.owner with
    | none => rfl
    | some g =>
      rw [flight_of_owner ho] at hdone
      cases hdone
  have hidle : stage.active = none := by
    cases ha : stage.active with
    | none => rfl
    | some g =>
      rw [owner_of_active ha] at hnone
      cases hnone
  have hother : ∀ {d : Nat}, d ≠ c →
      ((s.completeFlight f).setStage c x stage).callers[d]? = s.callers[d]? :=
    fun hne => List.getElem?_set_ne (Ne.symm hne)
  refine ⟨fun d y g hd hg => ?_, fun k g => ?_, fun d e y z g hd he hy hz => ?_,
    fun d y g flight hd hg hfound => ?_, fun g flight hfound hrunning => ?_,
    fun d y g flight hd hg hfound => ?_, fun g flight hfound => ?_, fun d y g n hd hstage => ?_⟩
  · rcases Ledger.getElem?_set_cases hd with ⟨rfl, rfl⟩ | ⟨_, hd'⟩
    · rw [show stage.flight = some g from hg] at hdone
      cases hdone
    · obtain ⟨flight, hflight, hfingerprint⟩ := hs.known d y g hd' hg
      show ∃ flight, (s.completeFlight f).flights[g]? = some flight ∧ _
      rw [State.completeFlight, List.getElem?_modify, hflight]
      exact ⟨_, rfl, by split <;> exact hfingerprint⟩
  · show s.entries k = _ ↔ _
    rw [hs.entry]
    constructor
    · intro hparts
      obtain ⟨d, y, hd, hy, hyactive⟩ := hparts
      have hdc : d ≠ c := fun hdc => by
        rw [hdc, hc, Option.some.injEq] at hd
        rw [← hd, hactive] at hyactive
        cases hyactive
      exact ⟨d, y, (hother hdc).trans hd, hy, hyactive⟩
    · intro hparts
      obtain ⟨d, y, hd, hy, hyactive⟩ := hparts
      rcases Ledger.getElem?_set_cases hd with ⟨rfl, rfl⟩ | ⟨_, hd'⟩
      · rw [show stage.active = some g from hyactive] at hidle
        cases hidle
      · exact ⟨d, y, hd', hy, hyactive⟩
  · rcases Ledger.getElem?_set_cases hd with ⟨rfl, rfl⟩ | ⟨_, hd'⟩
    · rw [show stage.owner = some g from hy] at hnone
      cases hnone
    · rcases Ledger.getElem?_set_cases he with ⟨rfl, rfl⟩ | ⟨_, he'⟩
      · rw [show stage.owner = some g from hz] at hnone
        cases hnone
      · exact hs.alone d e y z g hd' he' hy hz
  · rcases Ledger.getElem?_set_cases hd with ⟨rfl, rfl⟩ | ⟨_, hd'⟩
    · rw [show stage.active = some g from hg] at hidle
      cases hidle
    · rcases completeFlight_cases hfound with ⟨_, _, before, hbefore, rfl⟩ | ⟨_, hbefore⟩
      · exact hs.unpublished d y g before hd' hg hbefore
      · exact hs.unpublished d y g flight hd' hg hbefore
  · rcases completeFlight_cases hfound with ⟨_, hcompleted, _⟩ | ⟨hgf, hbefore⟩
    · rw [hcompleted] at hrunning
      cases hrunning
    · obtain ⟨d, y, hd, hy⟩ := hs.running g flight hbefore hrunning
      have hdc : d ≠ c := fun hdc => by
        rw [hdc, hc, Option.some.injEq] at hd
        rw [← hd, howner, Option.some.injEq] at hy
        exact hgf hy.symm
      exact ⟨d, y, (hother hdc).trans hd, hy⟩
  · rcases Ledger.getElem?_set_cases hd with ⟨rfl, rfl⟩ | ⟨hdc, hd'⟩
    · rw [show stage.owner = some g from hg] at hnone
      cases hnone
    · rcases completeFlight_cases hfound with ⟨rfl, _⟩ | ⟨_, hbefore⟩
      · exact absurd (hs.alone d c y x g hd' hc hg howner) hdc
      · exact hs.owned d y g flight hd' hg hbefore
  · rcases completeFlight_cases hfound with ⟨_, hcompleted, before, _, rfl⟩ | ⟨_, hbefore⟩
    · exact iff_of_true hcompleted (Nat.succ_ne_zero _)
    · exact hs.version g flight hbefore
  · rcases Ledger.getElem?_set_cases hd with ⟨rfl, rfl⟩ | ⟨_, hd'⟩
    · rcases hstage with rfl | rfl <;> cases hdone
    · exact hs.seen d y g n hd' hstage

theorem flying_step (h : Transition s t) (hs : Flying s) : Flying t := by
  cases h with
  | call fingerprint => exact hs.arrive fingerprint
  | hit c x a caller stage entry alive =>
    refine hs.move caller _ rfl rfl rfl rfl ?_ ?_ nofun (fun _ _ h => ?_)
    · rw [stage]
      rfl
    · rw [stage]
      rfl
    · rcases h with h | h <;> cases h
  | join c x f flight caller stage entry found =>
    obtain ⟨_, hfound, hfingerprint, _, hrunning⟩ := hs.found entry
    obtain rfl := Option.some.inj (found.symm.trans hfound)
    refine hs.move caller _ rfl rfl rfl rfl ?_ ?_ (fun g hg => ?_) (fun g n hn => ?_)
    · rw [stage]
      rfl
    · rw [stage]
      rfl
    · cases hg
      exact ⟨flight, found, hfingerprint⟩
    · have hversion : flight.version = 0 := by
        by_contra hne
        rw [(hs.version f flight found).mpr hne] at hrunning
        cases hrunning
      rcases hn with hn | hn
      · cases hn
        exact hversion
      · cases hn
  | cold c x caller stage nobody expired => exact hs.start caller stage nobody
  | go c x stage caller rule =>
    exact hs.move caller _ rfl rfl rfl rfl rule.active rule.owner
      (fun f hf => hs.known c x f caller (rule.flight hf)) fun f n hn => rule.seen hs caller rfl hn
  | read c x f flight a caller stage found published =>
    refine hs.move caller _ rfl rfl rfl rfl ?_ ?_ nofun (fun _ _ h => ?_)
    · rw [stage]
      rfl
    · rw [stage]
      rfl
    · rcases h with h | h <;> cases h
  | take c x f caller stage present | taken c x f caller stage absent =>
    refine hs.move caller _ rfl rfl rfl rfl ?_ ?_ (fun g hg => ?_) (fun _ _ h => ?_)
    · rw [stage]
      rfl
    · rw [stage]
      rfl
    · exact hs.known c x g caller (stage ▸ hg)
    · rcases h with h | h <;> cases h
  | made c x f caller stage =>
    refine hs.move caller _ rfl rfl rfl rfl ?_ ?_ (fun g hg => ?_) (fun _ _ h => ?_)
    · rcases stage with stage | stage <;> rw [stage] <;> rfl
    · rcases stage with stage | stage <;> rw [stage] <;> rfl
    · refine hs.known c x g caller ?_
      rcases stage with stage | stage <;> exact stage ▸ hg
    · rcases h with h | h <;> cases h
  | publish c x f a flight caller stage found entry =>
    have := hs.settle caller (stage ▸ rfl : x.stage.active = some f) (.completing f a) (some (.ready a))
      (s.flights.set f { flight with template := some a }) rfl rfl nofun (fun g after hafter => ?_)
      (fun g before hbefore => ?_)
    · exact ⟨this.known, this.entry, this.alone, this.unpublished, this.running, this.owned,
        this.version, this.seen⟩
    · rcases Ledger.getElem?_set_cases hafter with ⟨rfl, rfl⟩ | ⟨_, hbefore⟩
      · exact ⟨flight, found, rfl, rfl, rfl, fun hne => absurd rfl hne⟩
      · exact ⟨after, hbefore, rfl, rfl, rfl, fun _ => rfl⟩
    · by_cases hgf : g = f
      · subst hgf
        rw [found, Option.some.injEq] at hbefore
        exact ⟨_, Ledger.getElem?_set_of_some found, hbefore ▸ rfl⟩
      · exact ⟨before, (List.getElem?_set_ne (Ne.symm hgf)).trans hbefore, rfl⟩
  | publishLost c x f a caller stage lost =>
    exact absurd (hs.entry_of_active caller (stage ▸ rfl)) lost
  | release c x f caller stage entry =>
    exact hs.settle caller (stage ▸ rfl : x.stage.active = some f) (.dropped f) none s.flights rfl rfl
      nofun (fun g after hafter => ⟨after, hafter, rfl, rfl, rfl, fun _ => rfl⟩)
      fun g before hbefore => ⟨before, hbefore, rfl⟩
  | releaseLost c x f caller stage lost =>
    exact absurd (hs.entry_of_active caller (stage ▸ rfl)) lost
  | complete c x f a caller stage =>
    have := hs.finish caller (stage ▸ rfl : x.stage.owner = some f) (stage ▸ rfl) (.returned a) rfl
    exact ⟨this.known, this.entry, this.alone, this.unpublished, this.running, this.owned,
      this.version, this.seen⟩
  | completeDropped c x f caller stage =>
    exact hs.finish caller (stage ▸ rfl : x.stage.owner = some f) (stage ▸ rfl) .failed rfl
  | cloneHandle | dropHandle =>
    exact ⟨hs.known, hs.entry, hs.alone, hs.unpublished, hs.running, hs.owned, hs.version, hs.seen⟩

theorem flying (h : (machine κ).Reachable s) : Flying s := by
  have hinv : (machine κ).Invariant Flying := by
    refine ⟨?_, fun s a t _ hs hstep => flying_step (step_transition s t a hstep) hs⟩
    intro _ heq
    obtain rfl := heq
    refine ⟨nofun, fun k f => iff_of_false nofun ?_, nofun, nofun, nofun, nofun, nofun, nofun⟩
    intro hparts
    obtain ⟨_, _, hc, _⟩ := hparts
    cases hc
  exact hinv.holds h

end Effects

end Flying

end PostgresTestHarness.TemplateCache
