import PostgresTestHarness.AdminPool.Slots
import PostgresTestHarness.Postgres.AdminClient

/-! The sessions of `AdminSessionPool`, with their settings.

`AdminPool.System` counts sessions; here each has its settings at the server, and an operation
may leave them as it likes. A new session is configured before it is handed out, and one that was
used before is discarded and then configured again, in two requests. No two calls have one
session (`Single`), so between the two requests nobody runs a statement on it. -/
namespace PostgresTestHarness.AdminPool
open Postgres
open StaleCleanup (Duration)

/-- The session that a call has to itself. -/
def Stage.session? : Stage → Option Nat
  | .resetting client | .operating client | .returning client _ => some client
  | _ => none

def Stage.has (client : Nat) (x : Stage) : Nat := if x.session? = some client then 1 else 0

/-- How often a session is in the pool and with a call. -/
def State.owners (s : State) (client : Nat) : Nat := s.idle.count client + s.count (Stage.has client)

/-- A step that neither copies a session nor makes one up, nor hands one to an operation. -/
structure Passes (s t : State) : Prop where
  next : t.nextClient = s.nextClient
  owners : ∀ client, t.owners client ≤ s.owners client
  operating : ∀ (i client : Nat) (elapsed : Bool), t.checkouts[i]? = some ⟨.operating client, elapsed⟩ →
    ∃ before, s.checkouts[i]? = some ⟨.operating client, before⟩

section Owners
variable {cfg : Config} {s t u : State} {i : Nat} {c d : Checkout} {a : Action}

theorem owners_move (call : s.checkouts[i]? = some c) (d : Checkout) (client : Nat) :
    (s.move i d).owners client + c.stage.has client = s.owners client + d.stage.has client := by
  have hcount := count_move (Stage.has client) call d
  rw [State.owners, State.owners, show (s.move i d).idle = s.idle from rfl]
  omega

theorem operating_move (call : s.checkouts[i]? = some c)
    (h : ∀ client, d.stage = .operating client → c.stage = .operating client) {j client : Nat} {elapsed : Bool}
    (hj : (s.move i d).checkouts[j]? = some ⟨.operating client, elapsed⟩) :
    ∃ before, s.checkouts[j]? = some ⟨.operating client, before⟩ := by
  obtain ⟨rfl, rfl⟩ | ⟨_, hj⟩ := Ledger.getElem?_set_cases hj
  · obtain ⟨stage, before⟩ := c
    obtain rfl : stage = .operating client := h client rfl
    exact ⟨before, call⟩
  · exact ⟨elapsed, hj⟩

theorem owners_le_move (call : s.checkouts[i]? = some c) {client : Nat}
    (h : d.stage.has client ≤ c.stage.has client) : (s.move i d).owners client ≤ s.owners client := by
  have howners := owners_move call d client
  omega

theorem has_of_none {x : Stage} (h : x.session? = none) (client : Nat) : x.has client = 0 := by
  rw [Stage.has, h]
  exact if_neg (fun h => by cases h)

theorem not_operating {x y : Stage} (h : x.session? = none) (client : Nat) (hx : x = .operating client) :
    y = .operating client := by
  rw [hx] at h
  cases h

/-- A call that has no session afterwards. -/
theorem passes_none (call : s.checkouts[i]? = some c) (h : d.stage.session? = none) : Passes s (s.move i d) where
  next := rfl
  owners client := owners_le_move call (by rw [has_of_none h]; exact Nat.zero_le _)
  operating _ _ _ hj := operating_move call (not_operating h) hj

/-- A call that goes on with what it has. -/
theorem passes_same (call : s.checkouts[i]? = some c) (h : d.stage.session? = c.stage.session?)
    (hoperating : ∀ client, d.stage = .operating client → c.stage = .operating client) : Passes s (s.move i d) where
  next := rfl
  owners client := owners_le_move call (by rw [Stage.has, Stage.has, h])
  operating _ _ _ hj := operating_move call hoperating hj

theorem passes_notified {waiter : Option Nat} (h : Passes s t) (hnotify : t.notifyOne waiter = some u) :
    Passes s u := by
  cases notifyOne_notified hnotify with
  | nobody _ => exact h
  | one j elapsed parked =>
    have hwoken := passes_none (d := ⟨.woken, elapsed⟩) parked rfl
    refine ⟨hwoken.next.trans h.next, fun client => Nat.le_trans (hwoken.owners client) (h.owners client),
      fun k client late hk => ?_⟩
    obtain ⟨before, hk⟩ := hwoken.operating k client late hk
    exact h.operating k client before hk

theorem passes_release {waiter : Option Nat} {next : Checkout} (call : s.checkouts[i]? = some c)
    (h : next.stage.session? = none) (hrelease : s.releaseSlot i next waiter = some t) : Passes s t := by
  unfold State.releaseSlot at hrelease
  split at hrelease
  · cases hrelease
    have hmoved := passes_none (d := { next with stage := .panicked }) call rfl
    exact ⟨hmoved.next, hmoved.owners, hmoved.operating⟩
  · rename_i total _
    have hmoved := passes_none call h
    exact passes_notified (t := { s.move i next with total }) ⟨hmoved.next, hmoved.owners, hmoved.operating⟩ hrelease

theorem owners_notified (client : Nat) :
    ({ s with checkouts := s.checkouts.map Checkout.notified } : State).owners client = s.owners client := by
  have hcount : ({ s with checkouts := s.checkouts.map Checkout.notified } : State).count (Stage.has client) =
      s.count (Stage.has client) := by
    refine count_notified _ fun c => ?_
    obtain ⟨stage, elapsed⟩ := c
    cases stage <;> rfl
  rw [State.owners, hcount]
  rfl

theorem passes_giveBack {waiter : Option Nat} (h : s.giveBack i waiter = some t) : Passes s t := by
  unfold State.giveBack at h
  split at h
  · rename_i client disposition elapsed call
    split at h
    · refine passes_notified (t := { s.move i ⟨.finished, elapsed⟩ with idle := client :: s.idle })
        ⟨rfl, fun other => ?_, fun _ _ _ hj => operating_move call (not_operating rfl) hj⟩ h
      have howners : (s.move i ⟨.finished, elapsed⟩).owners other + (Stage.returning client disposition).has other =
          s.owners other := owners_move call ⟨.finished, elapsed⟩ other
      have hidle : (client :: s.idle).count other = s.idle.count other +
          (Stage.returning client disposition).has other := by
        rw [List.count_cons, Stage.has, Stage.session?]
        simp only [Option.some.injEq, beq_iff_eq]
      have hmoved : (s.move i ⟨.finished, elapsed⟩).owners other =
          s.idle.count other + (s.move i ⟨.finished, elapsed⟩).count (Stage.has other) := rfl
      show (client :: s.idle).count other + (s.move i ⟨.finished, elapsed⟩).count (Stage.has other) ≤ s.owners other
      omega
    · exact passes_release call rfl h
  · cases h

theorem passes_acquire (h : s.acquire cfg i = some t) : Passes s t := by
  unfold State.acquire at h
  split at h
  · rename_i stage elapsed call
    split at h
    · cases h
      split
      · exact passes_none call rfl
      · split
        · exact passes_none call rfl
        · split
          · rename_i client rest hidle
            refine ⟨rfl, fun other => ?_, fun _ _ _ hj => operating_move call (fun _ h => by cases h) hj⟩
            have howners : (s.move i ⟨.resetting client, elapsed⟩).owners other + stage.has other =
                s.owners other + (Stage.resetting client).has other :=
              owners_move call ⟨.resetting client, elapsed⟩ other
            have hcount : s.idle.count other = rest.count other + (Stage.resetting client).has other := by
              rw [hidle, List.count_cons, Stage.has, Stage.session?]
              simp only [Option.some.injEq, beq_iff_eq]
            have hmoved : (s.move i ⟨.resetting client, elapsed⟩).owners other =
                s.idle.count other + (s.move i ⟨.resetting client, elapsed⟩).count (Stage.has other) := rfl
            show rest.count other + (s.move i ⟨.resetting client, elapsed⟩).count (Stage.has other) ≤ s.owners other
            omega
          · split
            · have hmoved := passes_none (d := ⟨.connecting, elapsed⟩) call rfl
              exact ⟨hmoved.next, hmoved.owners, hmoved.operating⟩
            · split <;> exact passes_none call rfl
    · cases h
  · cases h

/-- The steps that hand a session to an operation. -/
def Action.handsOut : Action → Bool
  | .connect _ (.ok _) => true
  | .reset _ succeeds => succeeds
  | _ => false

theorem passes_step (h : s.step cfg a = some t) (hplain : a.handsOut = false) : Passes s t := by
  cases a with
  | execute =>
    cases h
    refine ⟨rfl, fun client => ?_, fun j client elapsed hj => ?_⟩
    · rw [State.owners, count_execute, has_of_none rfl, Nat.add_zero]
      exact Nat.le_refl _
    · obtain ⟨_, hnew⟩ | hj := Ledger.getElem?_concat_cases hj
      · cases hnew
      · exact ⟨elapsed, hj⟩
  | elapse i =>
    simp only [State.step] at h
    split at h
    · rename_i c call
      cases h
      exact passes_same call rfl fun _ h => h
    · cases h
  | acquire i => exact passes_acquire h
  | endWait i =>
    simp only [State.step] at h
    split at h
    · rename_i elapsed call
      cases h
      exact passes_none call rfl
    · cases h
  | reset i succeeds =>
    simp only [State.step] at h
    split at h
    · rename_i client elapsed call
      cases h
      cases succeeds with
      | true => cases hplain
      | false => exact passes_none call rfl
    · cases h
  | release i waiter =>
    simp only [State.step] at h
    split at h
    · rename_i elapsed call
      exact passes_release call rfl h
    · rename_i error elapsed call
      exact passes_release call rfl h
    · cases h
  | checkDeadline i =>
    simp only [State.step] at h
    split at h
    · rename_i elapsed call
      cases h
      cases elapsed <;> exact passes_none call rfl
    · cases h
  | connect i result =>
    simp only [State.step] at h
    split at h
    · cases hplain
    · rename_i elapsed error call
      cases h
      exact passes_none call rfl
    · cases h
  | operation i disposition =>
    simp only [State.step] at h
    split at h
    · rename_i client elapsed call
      cases h
      exact passes_same call rfl fun _ h => by cases h
    · cases h
  | giveBack i waiter => exact passes_giveBack h
  | close =>
    simp only [State.step, State.close] at h
    split at h
    · cases h
      exact ⟨rfl, fun client => Nat.le_refl _, fun _ _ elapsed hj => ⟨elapsed, hj⟩⟩
    · cases h
      refine ⟨rfl, fun client => ?_, fun j client elapsed hj => ?_⟩
      rotate_left
      · rw [List.getElem?_map] at hj
        obtain ⟨⟨stage, before⟩, hc, heq⟩ := Option.map_eq_some_iff.mp hj
        cases stage <;> cases heq
        exact ⟨_, hc⟩
      have howners := owners_notified (s := s) client
      have hmapped : ({ s with checkouts := s.checkouts.map Checkout.notified } : State).owners client =
          s.idle.count client + ({ s with checkouts := s.checkouts.map Checkout.notified } : State).count
            (Stage.has client) := rfl
      show ([] : List Nat).count client + _ ≤ _
      rw [List.count_nil, Nat.zero_add]
      show ({ s with checkouts := s.checkouts.map Checkout.notified } : State).count (Stage.has client) ≤ _
      omega

theorem connect_step (h : s.step cfg (.connect i (.ok ())) = some t) : ∃ elapsed,
    s.checkouts[i]? = some ⟨.connecting, elapsed⟩ ∧
      t = { s.move i ⟨.operating s.nextClient, elapsed⟩ with nextClient := s.nextClient + 1 } := by
  simp only [State.step] at h
  split at h
  · rename_i elapsed call _
    cases h
    exact ⟨elapsed, call, rfl⟩
  · rename_i hresult
    cases hresult
  · cases h

theorem reset_step (h : s.step cfg (.reset i true) = some t) : ∃ client elapsed,
    s.checkouts[i]? = some ⟨.resetting client, elapsed⟩ ∧ t = s.move i ⟨.operating client, elapsed⟩ := by
  simp only [State.step] at h
  split at h
  · rename_i client elapsed call
    cases h
    exact ⟨client, elapsed, call, rfl⟩
  · cases h

/-- Each session is in one place at most, and the numbers to come are nowhere. -/
structure Single (s : State) : Prop where
  once : ∀ client, s.owners client ≤ 1
  fresh : ∀ client, s.nextClient ≤ client → s.owners client = 0

theorem Single.of_le (hs : Single s) (next : t.nextClient = s.nextClient)
    (owners : ∀ client, t.owners client ≤ s.owners client) : Single t := by
  refine ⟨fun client => Nat.le_trans (owners client) (hs.once client), fun client hclient => ?_⟩
  have hzero := hs.fresh client (next ▸ hclient)
  have hle := owners client
  omega

/-- A session comes from a connection, under the next number. -/
theorem Single.connect (hs : Single s) {elapsed : Bool} (call : s.checkouts[i]? = some ⟨.connecting, elapsed⟩) :
    Single { s.move i ⟨.operating s.nextClient, elapsed⟩ with nextClient := s.nextClient + 1 } := by
  have howners : ∀ client, (s.move i ⟨.operating s.nextClient, elapsed⟩).owners client =
      s.owners client + if s.nextClient = client then 1 else 0 := by
    intro client
    have hmove : (s.move i ⟨.operating s.nextClient, elapsed⟩).owners client + Stage.connecting.has client =
        s.owners client + (Stage.operating s.nextClient).has client :=
      owners_move call ⟨.operating s.nextClient, elapsed⟩ client
    rw [has_of_none rfl, Nat.add_zero, Stage.has, Stage.session?] at hmove
    simpa only [Option.some.injEq] using hmove
  refine ⟨fun client => ?_, fun client hclient => ?_⟩
  · show (s.move i ⟨.operating s.nextClient, elapsed⟩).owners client ≤ 1
    rw [howners]
    have honce := hs.once client
    split
    · rename_i heq
      rw [hs.fresh client (Nat.le_of_eq heq)]
    · exact honce
  · show (s.move i ⟨.operating s.nextClient, elapsed⟩).owners client = 0
    have hlater : s.nextClient + 1 ≤ client := hclient
    rw [howners, hs.fresh client (by omega), if_neg (by omega)]

theorem single_step (hs : Single s) (h : s.step cfg a = some t) : Single t := by
  by_cases hplain : a.handsOut = false
  · have hpasses := passes_step h hplain
    exact hs.of_le hpasses.next hpasses.owners
  · cases a with
    | connect i result =>
      cases result with
      | ok _ =>
        obtain ⟨elapsed, call, rfl⟩ := connect_step h
        exact hs.connect call
      | error _ => exact absurd rfl hplain
    | reset i succeeds =>
      cases succeeds with
      | true =>
        obtain ⟨client, elapsed, call, rfl⟩ := reset_step h
        exact hs.of_le rfl fun other => owners_le_move call (Nat.le_refl _)
      | false => exact absurd rfl hplain
    | _ => exact absurd rfl hplain

/-- Two calls never have one session, and a call's session is not in the pool. -/
theorem Single.apart (hs : Single s) {client j : Nat} {d : Checkout} (call : s.checkouts[i]? = some c)
    (has : c.stage.session? = some client) (other : s.checkouts[j]? = some d)
    (hasToo : d.stage.session? = some client) : i = j := by
  by_contra hne
  have hmove := count_move (Stage.has client) call ⟨.finished, c.elapsed⟩
  have hplace : (s.move i ⟨.finished, c.elapsed⟩).checkouts[j]? = some d := (List.getElem?_set_ne hne).trans other
  have hle := le_count (Stage.has client) hplace
  have honce := hs.once client
  have hfirst : c.stage.has client = 1 := if_pos has
  have hsecond : d.stage.has client = 1 := if_pos hasToo
  have hdone : (Stage.finished).has client = 0 := has_of_none rfl client
  rw [State.owners] at honce
  rw [hfirst, hdone] at hmove
  rw [hsecond] at hle
  omega

theorem Single.not_idle (hs : Single s) {client : Nat} (call : s.checkouts[i]? = some c)
    (has : c.stage.session? = some client) : client ∉ s.idle := by
  intro hidle
  have hcount := List.count_pos_iff.mpr hidle
  have hle := le_count (Stage.has client) call
  have honce := hs.once client
  rw [State.owners] at honce
  rw [show c.stage.has client = 1 from if_pos has] at hle
  omega

end Owners

/-! ### Settings -/

/-- `AdminSessionPool`, what it is made with. -/
structure PoolConfig where
  timeouts : HarnessTimeouts
  project : ProjectName
  maxSize : Nat

namespace PoolConfig
variable (cfg : PoolConfig) (defaults : Settings)

def pool : Config := ⟨cfg.maxSize, cfg.timeouts.operationTimeout.asMillis⟩

def applicationName : Text := lifecycleApplicationNamePrefix ++ cfg.project.value

/-- What a lifecycle operation finds on its session. -/
def configured : Settings :=
  ⟨cfg.timeouts.operationTimeout.asMillis, min 10000 cfg.timeouts.operationTimeout.asMillis, cfg.applicationName,
    defaults.others⟩

/-- `configure_lifecycle_session`, at the server. -/
def configure (settings : Settings) : Option Settings :=
  match configureLifecycleText cfg.timeouts.operationTimeout cfg.applicationName with
  | .ok text => Settings.execute defaults settings text
  | .error _ => none

end PoolConfig

/-- A request of an operation, and whether that operation had set something in its session before. -/
structure PooledRequest where
  request : AdminClient.Request
  altered : Bool

structure PooledSession where
  settings : Settings
  /-- `DISCARD ALL` has been executed, and nothing since. -/
  discarded : Bool
  /-- The operation that has it has set something, whatever it is. -/
  altered : Bool
  /-- The requests of the operations it was handed to, newest first. -/
  requests : List PooledRequest

/-- The pool and its sessions, by their numbers. -/
structure Pooled where
  pool : State
  sessions : List PooledSession

inductive PooledAction where
  | pool (a : Action)
  /-- `AdminClient::connect` and `prepare_new_lifecycle_session`. -/
  | connect (call : Nat)
  /-- The first request of `prepare_reused_lifecycle_session`. -/
  | discard (call : Nat)
  /-- And the second. -/
  | reconfigure (call : Nat)
  /-- A request of the operation that has the session. -/
  | request (call : Nat)
  /-- The operation sets whatever it likes. -/
  | alter (call : Nat) (settings : Settings)

namespace Pooled

def set (s : Pooled) (client : Nat) (session : PooledSession) : Pooled :=
  { s with sessions := s.sessions.set client session }

def step (cfg : PoolConfig) (defaults : Settings) (s : Pooled) : PooledAction → Option Pooled
  | .pool a => if a.handsOut then none else (s.pool.step cfg.pool a).map fun pool => { s with pool }
  | .connect call =>
    (cfg.configure defaults defaults).bind fun settings =>
      (s.pool.step cfg.pool (.connect call (.ok ()))).map fun pool =>
        { pool, sessions := s.sessions ++ [⟨settings, false, false, []⟩] }
  | .discard call =>
    match s.pool.checkouts[call]? with
    | some ⟨.resetting client, _⟩ =>
      s.sessions[client]?.bind fun session => (Settings.execute defaults session.settings discardAllText).map
        fun settings => s.set client { session with settings, discarded := true }
    | _ => none
  | .reconfigure call =>
    match s.pool.checkouts[call]? with
    | some ⟨.resetting client, _⟩ =>
      s.sessions[client]?.bind fun session =>
        if session.discarded then
          (cfg.configure defaults session.settings).bind fun settings =>
            (s.pool.step cfg.pool (.reset call true)).map fun pool =>
              { s.set client { session with settings, discarded := false, altered := false } with pool }
        else none
    | _ => none
  | .request call =>
    match s.pool.checkouts[call]? with
    | some ⟨.operating client, _⟩ =>
      s.sessions[client]?.map fun session => s.set client { session with
        requests := ⟨⟨.statement, clientOperationTimeout cfg.timeouts.operationTimeout, session.settings⟩,
          session.altered⟩ :: session.requests }
    | _ => none
  | .alter call settings =>
    match s.pool.checkouts[call]? with
    | some ⟨.operating client, _⟩ =>
      s.sessions[client]?.map fun session => s.set client { session with settings, altered := true }
    | _ => none

end Pooled

def pooledMachine (cfg : PoolConfig) (defaults : Settings) : Machine Pooled PooledAction where
  initial s := s = ⟨.initial, []⟩
  step := Pooled.step cfg defaults

section Prepared
variable {cfg : PoolConfig} {defaults : Settings} {s t : Pooled}

theorem plainName_project (cfg : PoolConfig) : plainName cfg.applicationName = true := by
  have hchars : ∀ c ∈ cfg.project.value, printable c = true := by
    intro c hc
    have hname := cfg.project.chars c hc
    have hbounds : 48 ≤ c.toNat ∧ c.toNat ≤ 122 := by
      simp only [isNameChar, isAsciiLowercase, isAsciiDigit, Bool.or_eq_true, decide_eq_true_eq, beq_iff_eq,
        Char.le_def, UInt32.le_iff_toNat_le] at hname
      obtain (⟨hlow, hhigh⟩ | ⟨hlow, hhigh⟩) | rfl := hname
      · exact ⟨Nat.le_trans (by decide) hlow, hhigh⟩
      · exact ⟨hlow, Nat.le_trans hhigh (by decide)⟩
      · decide
    rw [printable, decide_eq_true (by omega), decide_eq_true (by omega)]
    rfl
  have hlength : cfg.applicationName.length < 64 := by
    have hproject := cfg.project.length_le
    have hprefix : lifecycleApplicationNamePrefix.length = 32 := by decide
    rw [PoolConfig.applicationName, List.length_append, hprefix]
    omega
  rw [plainName, decide_eq_true hlength, Bool.true_and, List.all_eq_true]
  intro c hc
  obtain hc | hc := List.mem_append.mp hc
  · exact List.all_eq_true.mp (by decide : lifecycleApplicationNamePrefix.all printable = true) c hc
  · exact hchars c hc

/-- Whatever settings a session has, configuring it leaves only what the harness does not set. -/
theorem configure_eq (h : cfg.timeouts.Valid) (defaults settings : Settings) :
    cfg.configure defaults settings = some (cfg.configured settings) := by
  rw [PoolConfig.configure, configureLifecycleText_eq (AdminClient.millis_fit h.operation)]
  exact (execute_lifecycle (Nat.min_le_right _ _) (plainName_project cfg)).trans (if_pos h.operation.fits)

/-- What holds of the pool's sessions between two steps. -/
structure Prepared (cfg : PoolConfig) (defaults : Settings) (s : Pooled) : Prop where
  single : Single s.pool
  length : s.sessions.length = s.pool.nextClient
  operating : ∀ (i client : Nat) (elapsed : Bool), s.pool.checkouts[i]? = some ⟨.operating client, elapsed⟩ →
    ∃ session, s.sessions[client]? = some session ∧ session.discarded = false ∧
      (session.altered = false → session.settings = cfg.configured defaults)
  discarded : ∀ session ∈ s.sessions, session.discarded = true → session.settings = defaults
  requests : ∀ session ∈ s.sessions, ∀ r ∈ session.requests, r.altered = false → r.request =
    ⟨.statement, clientOperationTimeout cfg.timeouts.operationTimeout, cfg.configured defaults⟩

theorem mem_of_set {sessions : List PooledSession} {client : Nat} {session other : PooledSession}
    (h : other ∈ sessions.set client session) : other = session ∨ other ∈ sessions :=
  (List.mem_or_eq_of_mem_set h).symm

/-- A session that no operation has may change. -/
theorem Prepared.change (hs : Prepared cfg defaults s) {client call : Nat} {elapsed : Bool}
    {session after : PooledSession} (resetting : s.pool.checkouts[call]? = some ⟨.resetting client, elapsed⟩)
    (found : s.sessions[client]? = some session) (requests : after.requests = session.requests)
    (discarded : after.discarded = true → after.settings = defaults) :
    Prepared cfg defaults (s.set client after) := by
  refine ⟨hs.single, (List.length_set ..).trans hs.length, fun i other late hi => ?_, fun x hx hdiscarded => ?_,
    fun x hx r hr => ?_⟩
  · have hother : other ≠ client := by
      intro heq
      subst heq
      obtain rfl := hs.single.apart resetting rfl hi rfl
      cases resetting.symm.trans hi
    obtain ⟨x, hx, hrest⟩ := hs.operating i other late hi
    exact ⟨x, (List.getElem?_set_ne (Ne.symm hother)).trans hx, hrest⟩
  · obtain rfl | hx := mem_of_set hx
    · exact discarded hdiscarded
    · exact hs.discarded x hx hdiscarded
  · obtain rfl | hx := mem_of_set hx
    · rw [requests] at hr
      exact hs.requests session (List.mem_of_getElem? found) r hr
    · exact hs.requests x hx r hr

/-- The session of a running operation, with one more request or with other settings. -/
theorem Prepared.operate (hs : Prepared cfg defaults s) {client : Nat} {session after : PooledSession}
    (found : s.sessions[client]? = some session) (discarded : after.discarded = false)
    (settings : after.altered = false → after.settings = cfg.configured defaults)
    (requests : ∀ r ∈ after.requests, r ∈ session.requests ∨ (r.altered = false → r.request =
      ⟨.statement, clientOperationTimeout cfg.timeouts.operationTimeout, cfg.configured defaults⟩)) :
    Prepared cfg defaults (s.set client after) := by
  refine ⟨hs.single, (List.length_set ..).trans hs.length, fun i other late hi => ?_, fun x hx hdiscarded => ?_,
    fun x hx r hr => ?_⟩
  · obtain ⟨x, hx, hrest⟩ := hs.operating i other late hi
    by_cases hother : other = client
    · subst hother
      exact ⟨after, Ledger.getElem?_set_of_some found, discarded, settings⟩
    · exact ⟨x, (List.getElem?_set_ne (Ne.symm hother)).trans hx, hrest⟩
  · obtain rfl | hx := mem_of_set hx
    · rw [discarded] at hdiscarded
      cases hdiscarded
    · exact hs.discarded x hx hdiscarded
  · obtain rfl | hx := mem_of_set hx
    · rcases requests r hr with hr | hr
      · exact hs.requests session (List.mem_of_getElem? found) r hr
      · exact hr
    · exact hs.requests x hx r hr

/-- A session that is configured is handed to the call that has it. -/
theorem Prepared.handOver (hs : Prepared cfg defaults s) {client call : Nat} {elapsed : Bool}
    {session : PooledSession} (resetting : s.pool.checkouts[call]? = some ⟨.resetting client, elapsed⟩)
    (found : s.sessions[client]? = some session) (settings : session.settings = cfg.configured defaults)
    (discarded : session.discarded = false) :
    Prepared cfg defaults { s with pool := s.pool.move call ⟨.operating client, elapsed⟩ } := by
  refine ⟨hs.single.of_le rfl fun other => owners_le_move resetting (Nat.le_refl _), hs.length,
    fun i other late hi => ?_, hs.discarded, hs.requests⟩
  obtain ⟨rfl, heq⟩ | ⟨_, hi⟩ := Ledger.getElem?_set_cases hi
  · cases heq
    exact ⟨session, found, discarded, fun _ => settings⟩
  · exact hs.operating i other late hi

/-! What each step of a session does. -/

theorem pool_step {a : Action} (h : s.step cfg defaults (.pool a) = some t) : a.handsOut = false ∧
    ∃ pool, s.pool.step cfg.pool a = some pool ∧ t = { s with pool } := by
  obtain ⟨hplain, h⟩ := Option.ite_none_left_eq_some.mp h
  obtain ⟨pool, hpool, heq⟩ := Option.map_eq_some_iff.mp h
  exact ⟨Bool.not_eq_true _ ▸ hplain, pool, hpool, heq.symm⟩

theorem pooled_connect_step (hvalid : cfg.timeouts.Valid) {call : Nat}
    (h : s.step cfg defaults (.connect call) = some t) : ∃ elapsed,
      s.pool.step cfg.pool (.connect call (.ok ())) = some t.pool ∧
      s.pool.checkouts[call]? = some ⟨.connecting, elapsed⟩ ∧
      t = ⟨{ s.pool.move call ⟨.operating s.pool.nextClient, elapsed⟩ with nextClient := s.pool.nextClient + 1 },
        s.sessions ++ [⟨cfg.configured defaults, false, false, []⟩]⟩ := by
  obtain ⟨settings, hconfigure, h⟩ := Option.bind_eq_some_iff.mp h
  obtain ⟨pool, hpool, heq⟩ := Option.map_eq_some_iff.mp h
  cases heq
  rw [configure_eq hvalid, Option.some.injEq] at hconfigure
  subst hconfigure
  obtain ⟨elapsed, connecting, heq⟩ := connect_step hpool
  exact ⟨elapsed, hpool, connecting, congrArg (Pooled.mk · _) heq⟩

theorem discard_step {call : Nat} (h : s.step cfg defaults (.discard call) = some t) :
    ∃ client elapsed session, s.pool.checkouts[call]? = some ⟨.resetting client, elapsed⟩ ∧
      s.sessions[client]? = some session ∧
      t = s.set client { session with settings := defaults, discarded := true } := by
  simp only [Pooled.step] at h
  split at h
  · rename_i client elapsed resetting
    obtain ⟨session, found, h⟩ := Option.bind_eq_some_iff.mp h
    rw [execute_discardAll, Option.map_some, Option.some.injEq] at h
    exact ⟨client, elapsed, session, resetting, found, h.symm⟩
  · cases h

theorem reconfigure_step (hvalid : cfg.timeouts.Valid) {call : Nat}
    (h : s.step cfg defaults (.reconfigure call) = some t) :
    ∃ client elapsed session, s.pool.checkouts[call]? = some ⟨.resetting client, elapsed⟩ ∧
      s.sessions[client]? = some session ∧ session.discarded = true ∧
      t = { s.set client
              { session with settings := cfg.configured session.settings, discarded := false, altered := false }
        with pool := s.pool.move call ⟨.operating client, elapsed⟩ } := by
  simp only [Pooled.step] at h
  split at h
  · rename_i client elapsed resetting
    obtain ⟨session, found, h⟩ := Option.bind_eq_some_iff.mp h
    obtain ⟨hdiscarded, h⟩ := Option.ite_none_right_eq_some.mp h
    obtain ⟨settings, hconfigure, h⟩ := Option.bind_eq_some_iff.mp h
    obtain ⟨pool, hpool, heq⟩ := Option.map_eq_some_iff.mp h
    rw [configure_eq hvalid, Option.some.injEq] at hconfigure
    subst hconfigure
    obtain ⟨client', elapsed', resetting', rfl⟩ := reset_step hpool
    cases resetting.symm.trans resetting'
    exact ⟨client, elapsed, session, resetting, found, hdiscarded, heq.symm⟩
  · cases h

theorem request_step {call : Nat} (h : s.step cfg defaults (.request call) = some t) :
    ∃ client elapsed session, s.pool.checkouts[call]? = some ⟨.operating client, elapsed⟩ ∧
      s.sessions[client]? = some session ∧ t = s.set client { session with
        requests := ⟨⟨.statement, clientOperationTimeout cfg.timeouts.operationTimeout, session.settings⟩,
          session.altered⟩ :: session.requests } := by
  simp only [Pooled.step] at h
  split at h
  · rename_i client elapsed operating
    obtain ⟨session, found, heq⟩ := Option.map_eq_some_iff.mp h
    exact ⟨client, elapsed, session, operating, found, heq.symm⟩
  · cases h

theorem alter_step {call : Nat} {settings : Settings} (h : s.step cfg defaults (.alter call settings) = some t) :
    ∃ client elapsed session, s.pool.checkouts[call]? = some ⟨.operating client, elapsed⟩ ∧
      s.sessions[client]? = some session ∧ t = s.set client { session with settings, altered := true } := by
  simp only [Pooled.step] at h
  split at h
  · rename_i client elapsed operating
    obtain ⟨session, found, heq⟩ := Option.map_eq_some_iff.mp h
    exact ⟨client, elapsed, session, operating, found, heq.symm⟩
  · cases h

theorem prepared_step (h : cfg.timeouts.Valid) (hs : Prepared cfg defaults s) {a : PooledAction}
    (hstep : s.step cfg defaults a = some t) : Prepared cfg defaults t := by
  cases a with
  | pool a =>
    obtain ⟨hplain, pool, hpool, rfl⟩ := pool_step hstep
    have hpasses := passes_step hpool hplain
    refine ⟨single_step hs.single hpool, hs.length.trans hpasses.next.symm, fun i client elapsed hi => ?_,
      hs.discarded, hs.requests⟩
    obtain ⟨before, hi⟩ := hpasses.operating i client elapsed hi
    exact hs.operating i client before hi
  | connect call =>
    obtain ⟨elapsed, hpool, connecting, rfl⟩ := pooled_connect_step h hstep
    refine ⟨single_step hs.single hpool, ?_, fun i client late hi => ?_, fun session hsession hdiscarded => ?_,
      fun session hsession r hr => ?_⟩
    · rw [List.length_append, hs.length]
      rfl
    · obtain ⟨rfl, heq⟩ | ⟨_, hi⟩ := Ledger.getElem?_set_cases hi
      · cases heq
        refine ⟨⟨cfg.configured defaults, false, false, []⟩, ?_, rfl, fun _ => rfl⟩
        rw [← hs.length]
        exact List.getElem?_concat_length
      · obtain ⟨session, hsession, hrest⟩ := hs.operating i client late hi
        exact ⟨session, Ledger.getElem?_concat_of_some hsession, hrest⟩
    · rcases List.mem_append.mp hsession with hold | hnew
      · exact hs.discarded session hold hdiscarded
      · rw [List.mem_singleton.mp hnew] at hdiscarded
        cases hdiscarded
    · rcases List.mem_append.mp hsession with hold | hnew
      · exact hs.requests session hold r hr
      · rw [List.mem_singleton.mp hnew] at hr
        cases hr
  | discard call =>
    obtain ⟨client, elapsed, session, resetting, found, rfl⟩ := discard_step hstep
    exact hs.change resetting found rfl fun _ => rfl
  | reconfigure call =>
    obtain ⟨client, elapsed, session, resetting, found, hdiscarded, rfl⟩ := reconfigure_step h hstep
    -- nothing but the defaults is left of what the session had
    have hsettings : session.settings = defaults := hs.discarded session (List.mem_of_getElem? found) hdiscarded
    rw [hsettings]
    have hchanged : Prepared cfg defaults (s.set client
        { session with settings := cfg.configured defaults, discarded := false, altered := false }) :=
      hs.change resetting found rfl nofun
    exact hchanged.handOver resetting (Ledger.getElem?_set_of_some found) rfl rfl
  | request call =>
    obtain ⟨client, elapsed, session, operating, found, rfl⟩ := request_step hstep
    obtain ⟨session', found', discarded, settings⟩ := hs.operating call client elapsed operating
    cases found.symm.trans found'
    refine hs.operate found discarded settings fun r hr => ?_
    rcases List.mem_cons.mp hr with rfl | hr
    · exact Or.inr fun hown => by rw [settings hown]
    · exact Or.inl hr
  | alter call settings =>
    obtain ⟨client, elapsed, session, operating, found, rfl⟩ := alter_step hstep
    obtain ⟨session', found', discarded, _⟩ := hs.operating call client elapsed operating
    cases found.symm.trans found'
    exact hs.operate found discarded nofun fun r hr => Or.inl hr

theorem prepared (h : cfg.timeouts.Valid) (hs : (pooledMachine cfg defaults).Reachable s) :
    Prepared cfg defaults s := by
  induction hs with
  | start hinitial =>
    cases hinitial
    exact ⟨⟨fun _ => Nat.zero_le _, fun _ _ => rfl⟩, rfl, nofun, nofun, nofun⟩
  | next a _ hstep ih => exact prepared_step h ih hstep

/-- A session comes to an operation with the settings of a new one, whatever it had before. -/
theorem Prepared.handed (h : cfg.timeouts.Valid) (hs : Prepared cfg defaults s) {a : PooledAction}
    (hstep : s.step cfg defaults a = some t) {i client : Nat} {elapsed : Bool}
    (hi : t.pool.checkouts[i]? = some ⟨.operating client, elapsed⟩) :
    (∃ before, s.pool.checkouts[i]? = some ⟨.operating client, before⟩) ∨
      ∃ session, t.sessions[client]? = some session ∧ session.altered = false ∧
        session.settings = cfg.configured defaults := by
  cases a with
  | pool a =>
    obtain ⟨hplain, pool, hpool, rfl⟩ := pool_step hstep
    exact Or.inl ((passes_step hpool hplain).operating i client elapsed hi)
  | connect call =>
    obtain ⟨late, _, _, rfl⟩ := pooled_connect_step h hstep
    obtain ⟨rfl, heq⟩ | ⟨_, hi⟩ := Ledger.getElem?_set_cases hi
    · cases heq
      refine Or.inr ⟨⟨cfg.configured defaults, false, false, []⟩, ?_, rfl, rfl⟩
      rw [← hs.length]
      exact List.getElem?_concat_length
    · exact Or.inl ⟨elapsed, hi⟩
  | reconfigure call =>
    obtain ⟨other, late, session, _, found, hdiscarded, rfl⟩ := reconfigure_step h hstep
    obtain ⟨rfl, heq⟩ | ⟨_, hi⟩ := Ledger.getElem?_set_cases hi
    · cases heq
      refine Or.inr ⟨_, Ledger.getElem?_set_of_some found, rfl, ?_⟩
      rw [hs.discarded session (List.mem_of_getElem? found) hdiscarded]
    · exact Or.inl ⟨elapsed, hi⟩
  | discard call =>
    obtain ⟨_, _, _, _, _, rfl⟩ := discard_step hstep
    exact Or.inl ⟨elapsed, hi⟩
  | request call =>
    obtain ⟨_, _, _, _, _, rfl⟩ := request_step hstep
    exact Or.inl ⟨elapsed, hi⟩
  | alter call settings =>
    obtain ⟨_, _, _, _, _, rfl⟩ := alter_step hstep
    exact Or.inl ⟨elapsed, hi⟩

/-- Nobody but the operation itself changes the settings of its session. -/
theorem Prepared.kept (h : cfg.timeouts.Valid) (hs : Prepared cfg defaults s) {a : PooledAction}
    (hstep : s.step cfg defaults a = some t) {i client : Nat} {elapsed : Bool} {session : PooledSession}
    (hi : s.pool.checkouts[i]? = some ⟨.operating client, elapsed⟩) (found : s.sessions[client]? = some session) :
    (∃ settings, a = .alter i settings) ∨ ∃ after, t.sessions[client]? = some after ∧
      after.settings = session.settings ∧ after.altered = session.altered := by
  -- a session that a call is resetting is another one
  have hother : ∀ {call other : Nat} {late : Bool},
      s.pool.checkouts[call]? = some ⟨.resetting other, late⟩ → other ≠ client := by
    intro call other late resetting heq
    subst heq
    obtain rfl := hs.single.apart resetting rfl hi rfl
    cases resetting.symm.trans hi
  cases a with
  | pool a =>
    obtain ⟨_, pool, _, rfl⟩ := pool_step hstep
    exact Or.inr ⟨session, found, rfl, rfl⟩
  | connect call =>
    obtain ⟨_, _, _, rfl⟩ := pooled_connect_step h hstep
    exact Or.inr ⟨session, Ledger.getElem?_concat_of_some found, rfl, rfl⟩
  | discard call =>
    obtain ⟨other, late, x, resetting, _, rfl⟩ := discard_step hstep
    exact Or.inr ⟨session, (List.getElem?_set_ne (hother resetting)).trans found, rfl, rfl⟩
  | reconfigure call =>
    obtain ⟨other, late, x, resetting, _, _, rfl⟩ := reconfigure_step h hstep
    exact Or.inr ⟨session, (List.getElem?_set_ne (hother resetting)).trans found, rfl, rfl⟩
  | request call =>
    obtain ⟨other, late, x, operating, hx, rfl⟩ := request_step hstep
    by_cases heq : other = client
    · subst heq
      cases found.symm.trans hx
      exact Or.inr ⟨_, Ledger.getElem?_set_of_some found, rfl, rfl⟩
    · exact Or.inr ⟨session, (List.getElem?_set_ne heq).trans found, rfl, rfl⟩
  | alter call settings =>
    obtain ⟨other, late, x, operating, hx, rfl⟩ := alter_step hstep
    by_cases heq : other = client
    · subst heq
      obtain rfl := hs.single.apart operating rfl hi rfl
      exact Or.inl ⟨settings, rfl⟩
    · exact Or.inr ⟨session, (List.getElem?_set_ne heq).trans found, rfl, rfl⟩

/-- What an operation can count on. -/
structure PooledSessions (cfg : PoolConfig) (defaults : Settings) (s : Pooled) : Prop where
  /-- It has its session to itself. -/
  alone : ∀ (i client : Nat) (elapsed : Bool), s.pool.checkouts[i]? = some ⟨.operating client, elapsed⟩ →
    client ∉ s.pool.idle ∧
      ∀ (j : Nat) (d : Checkout), s.pool.checkouts[j]? = some d → d.stage.session? = some client → j = i
  /-- It is handed over with the settings that `configure_lifecycle_session` gives a new one. -/
  handed : ∀ (a : PooledAction) (t : Pooled), s.step cfg defaults a = some t → ∀ (i client : Nat) (elapsed : Bool),
    t.pool.checkouts[i]? = some ⟨.operating client, elapsed⟩ →
    (∃ before, s.pool.checkouts[i]? = some ⟨.operating client, before⟩) ∨
      ∃ session, t.sessions[client]? = some session ∧ session.altered = false ∧
        session.settings = cfg.configured defaults
  /-- It keeps them, unless the operation itself sets something. -/
  configured : ∀ (i client : Nat) (elapsed : Bool), s.pool.checkouts[i]? = some ⟨.operating client, elapsed⟩ →
    ∃ session, s.sessions[client]? = some session ∧
      (session.altered = false → session.settings = cfg.configured defaults) ∧
      ∀ (a : PooledAction) (t : Pooled), s.step cfg defaults a = some t → (∃ settings, a = .alter i settings) ∨
        ∃ after, t.sessions[client]? = some after ∧ after.settings = session.settings ∧
          after.altered = session.altered
  /-- Its requests are made under them, with the client's deadline behind the server's. -/
  bounded : ∀ session ∈ s.sessions, ∀ r ∈ session.requests, r.altered = false →
    r.request.settings = cfg.configured defaults ∧ AdminClient.Bounded cfg.timeouts r.request

/-- Whatever earlier operations have left in a session, the one that gets it finds the settings of
a new session and has it to itself, and its requests are made under its limits. -/
theorem pooled_sessions_prepared {setters : List TimeoutSetter}
    (hconfig : HarnessTimeouts.new.set setters = .ok cfg.timeouts) (hs : (pooledMachine cfg defaults).Reachable s) :
    PooledSessions cfg defaults s := by
  have hvalid := HarnessTimeouts.valid_new.set hconfig
  have hprepared := prepared hvalid hs
  refine ⟨fun i client elapsed hi => ⟨hprepared.single.not_idle hi rfl, fun j d hj hd =>
    hprepared.single.apart hj hd hi rfl⟩, fun a t hstep i client elapsed hi => hprepared.handed hvalid hstep hi,
    fun i client elapsed hi => ?_, fun session hsession r hr hown => ?_⟩
  · obtain ⟨session, found, _, settings⟩ := hprepared.operating i client elapsed hi
    exact ⟨session, found, settings, fun a t hstep => hprepared.kept hvalid hstep hi found⟩
  · rw [hprepared.requests session hsession r hr hown]
    exact ⟨rfl, AdminClient.bounded_of_settings hvalid ⟨rfl, rfl⟩ rfl⟩

end Prepared

section Example

def shopPool : PoolConfig := ⟨.new, ⟨"shop".toList, rejection_shop⟩, 1⟩

def serverDefaults : Settings := ⟨0, 0, [], []⟩

/-- A session is used, left without its limits and with another search path, and used again. -/
def usedTwice : List PooledAction :=
  [.pool .execute, .pool (.acquire 0), .connect 0, .request 0,
    .alter 0 ⟨0, 0, [], [("search_path".toList, "shop".toList)]⟩, .request 0, .pool (.operation 0 .reuse),
    .pool (.giveBack 0 none), .pool .execute, .pool (.acquire 1), .discard 1, .reconfigure 1, .request 1]

theorem pooled_sessions_prepared_twice : ∃ s, (pooledMachine shopPool serverDefaults).Reachable s ∧
    s.pool.checkouts[1]? = some ⟨.operating 0, false⟩ ∧ (∃ session, s.sessions[0]? = some session ∧
      session.requests.map (·.altered) = [false, true, false] ∧
      session.settings = shopPool.configured serverDefaults) ∧ PooledSessions shopPool serverDefaults s := by
  have hrun : ((pooledMachine shopPool serverDefaults).run ⟨.initial, []⟩ usedTwice).any (fun s =>
      s.pool.checkouts[1]? == some ⟨.operating 0, false⟩ &&
        s.sessions[0]?.any fun session => session.requests.map (·.altered) == [false, true, false] &&
          session.settings == shopPool.configured serverDefaults) = true := by
    decide +kernel
  obtain ⟨s, hs, hfacts⟩ := (Option.any_eq_true _ _).mp hrun
  obtain ⟨hcall, hsession⟩ := Bool.and_eq_true_iff.mp hfacts
  obtain ⟨session, found, hsession⟩ := (Option.any_eq_true _ _).mp hsession
  obtain ⟨hrequests, hsettings⟩ := Bool.and_eq_true_iff.mp hsession
  have hreachable := Machine.reachable_of_run (m := pooledMachine shopPool serverDefaults) _ rfl hs
  have hconfig : HarnessTimeouts.new.set [] = .ok shopPool.timeouts := rfl
  exact ⟨s, hreachable, beq_iff_eq.mp hcall, ⟨session, found, beq_iff_eq.mp hrequests, beq_iff_eq.mp hsettings⟩,
    pooled_sessions_prepared hconfig hreachable⟩

end Example

end PostgresTestHarness.AdminPool
