import PostgresTestHarness.Library.Ledger
import PostgresTestHarness.Postgres.Server

/-! Programs that run on admin sessions.

A program is a type of states `ρ` with the code of each state: a lock to wait for or a
statement to run, and how it goes on with the answer, or after a failure; a question to its own process;
the end of its session; or only how it goes on. A statement that fails may have taken effect: the client
gave up, or lost the answer. One that the server has refused has not, and some code tells the two apart. A
session may end at any time, and its locks with it; the program can then only fail.

A program's locks follow from its code alone. `holds` gives for a state the locks that
the session holds there, or nothing where the program is about to end and does not say;
`Discipline` is what the code must satisfy, and `System.Kept` what then holds. -/
namespace PostgresTestHarness.Postgres
open SessionLock

variable {χ ρ : Type}

/-- What a program does next. -/
inductive Code (ρ : Type) : Type 1 where
  | acquire (mode : Mode) (key : Int64) (ok failed : ρ)
  | run {α : Type} (statement : Statement α) (ok : α → ρ) (failed : ρ)
  /-- A statement, where the server's own error is not any failure. -/
  | classify {α : Type} (statement : Statement α) (ok : α → ρ) (refused failed : ρ)
  | ask (yes no : ρ)
  /-- It drops its client, and with it the session. -/
  | close (next : ρ)
  | pass (next : ρ)

/-- The code of a program that is part of another. -/
def Code.map {σ : Type} (f : ρ → σ) : Code ρ → Code σ
  | .acquire mode key ok failed => .acquire mode key (f ok) (f failed)
  | .run stmt ok failed => .run stmt (fun answer => f (ok answer)) (f failed)
  | .classify stmt ok refused failed => .classify stmt (fun answer => f (ok answer)) (f refused) (f failed)
  | .ask yes no => .ask (f yes) (f no)
  | .close next => .close (f next)
  | .pass next => .pass (f next)

/-- A program on its session. -/
structure Client (ρ : Type) where
  program : ρ
  waiting : Bool
  connected : Bool
  deriving DecidableEq, Repr

/-- How a statement ends for the client; or the answer to a question. -/
inductive Outcome where
  | ok
  /-- The server answers with an error, and has done nothing; or the answer is no. -/
  | refused
  | failed (effect : Bool)
  deriving DecidableEq, Repr

def Client.goto (c : Client ρ) (p : ρ) : Client ρ := { c with program := p, waiting := false }

/-- Without its session. -/
def Client.closed (p : ρ) : Client ρ := ⟨p, false, false⟩

/-- One turn of a program: it asks for a lock, gets through with one, or runs a statement. -/
def advance (i : Nat) (s : Server χ) (c : Client ρ) (o : Outcome) : Code ρ → Option (Server χ × Client ρ)
  | .acquire mode key ok failed =>
    let lock : Lock Nat Int64 := ⟨i, key, mode⟩
    match o, c.connected, c.waiting with
    | .ok, true, false => some ({ s with locks := s.locks.request lock }, { c with waiting := true })
    | .ok, true, true =>
      if s.locks.grantable lock then some ({ s with locks := s.locks.grant lock }, c.goto ok) else none
    | .failed true, true, true =>
      if s.locks.grantable lock then some ({ s with locks := s.locks.grant lock }, c.goto failed) else none
    | .failed false, true, true => some ({ s with locks := s.locks.withdraw lock }, c.goto failed)
    | .failed _, _, _ => some (s, c.goto failed)
    | .ok, false, _ => none
    | .refused, _, _ => none
  | .run stmt ok failed =>
    match o, c.connected with
    | .ok, true => (s.execute i stmt).map fun (t, answer) => (t, c.goto (ok answer))
    | .failed true, true => (s.execute i stmt).map fun (t, _) => (t, c.goto failed)
    | .failed _, _ => some (s, c.goto failed)
    | .ok, false => none
    | .refused, _ => none
  | .classify stmt ok refused failed =>
    match o, c.connected with
    | .ok, true => (s.execute i stmt).map fun (t, answer) => (t, c.goto (ok answer))
    | .failed true, true => (s.execute i stmt).map fun (t, _) => (t, c.goto failed)
    | .failed _, _ => some (s, c.goto failed)
    | .refused, true => some (s, c.goto refused)
    | .ok, false => none
    | .refused, false => none
  | .ask yes no =>
    match o with
    | .ok => some (s, c.goto yes)
    | .refused => some (s, c.goto no)
    | .failed _ => none
  | .close next =>
    match o with
    | .ok => some ({ s with locks := s.locks.endSession i }, .closed next)
    | _ => none
  | .pass next =>
    match o with
    | .ok => some (s, c.goto next)
    | _ => none

/-- What a turn can be. -/
inductive Advanced (i : Nat) (s : Server χ) (c : Client ρ) : Code ρ → Server χ → Client ρ → Prop where
  | requested {mode key ok failed} : c.connected = true → c.waiting = false →
      Advanced i s c (.acquire mode key ok failed) { s with locks := s.locks.request ⟨i, key, mode⟩ }
        { c with waiting := true }
  | granted {mode key ok failed} : c.connected = true → c.waiting = true →
      s.locks.grantable ⟨i, key, mode⟩ = true →
      Advanced i s c (.acquire mode key ok failed) { s with locks := s.locks.grant ⟨i, key, mode⟩ } (c.goto ok)
  | grantedUnseen {mode key ok failed} : c.connected = true → c.waiting = true →
      s.locks.grantable ⟨i, key, mode⟩ = true →
      Advanced i s c (.acquire mode key ok failed) { s with locks := s.locks.grant ⟨i, key, mode⟩ } (c.goto failed)
  | withdrawn {mode key ok failed} : c.connected = true → c.waiting = true →
      Advanced i s c (.acquire mode key ok failed) { s with locks := s.locks.withdraw ⟨i, key, mode⟩ }
        (c.goto failed)
  | notAsked {mode key ok failed} : c.connected = false ∨ c.waiting = false →
      Advanced i s c (.acquire mode key ok failed) s (c.goto failed)
  | ran {α} {stmt : Statement α} {ok failed t answer} : c.connected = true →
      s.execute i stmt = some (t, answer) → Advanced i s c (.run stmt ok failed) t (c.goto (ok answer))
  | ranUnseen {α} {stmt : Statement α} {ok failed t answer} : c.connected = true →
      s.execute i stmt = some (t, answer) → Advanced i s c (.run stmt ok failed) t (c.goto failed)
  | notRun {α} {stmt : Statement α} {ok failed} : Advanced i s c (.run stmt ok failed) s (c.goto failed)
  | classifiedRan {α} {stmt : Statement α} {ok refused failed t answer} : c.connected = true →
      s.execute i stmt = some (t, answer) → Advanced i s c (.classify stmt ok refused failed) t (c.goto (ok answer))
  | classifiedUnseen {α} {stmt : Statement α} {ok refused failed t answer} : c.connected = true →
      s.execute i stmt = some (t, answer) → Advanced i s c (.classify stmt ok refused failed) t (c.goto failed)
  | classifiedNotRun {α} {stmt : Statement α} {ok refused failed} :
      Advanced i s c (.classify stmt ok refused failed) s (c.goto failed)
  | refused {α} {stmt : Statement α} {ok refused failed} : c.connected = true →
      Advanced i s c (.classify stmt ok refused failed) s (c.goto refused)
  | answered {yes no next} : next = yes ∨ next = no → Advanced i s c (.ask yes no) s (c.goto next)
  | closed {next} : Advanced i s c (.close next) { s with locks := s.locks.endSession i } (.closed next)
  | passed {next} : Advanced i s c (.pass next) s (c.goto next)

theorem advance_some {i : Nat} {s t : Server χ} {c d : Client ρ} {o : Outcome} {code : Code ρ}
    (h : advance i s c o code = some (t, d)) : Advanced i s c code t d := by
  obtain ⟨program, waiting, connected⟩ := c
  cases code with
  | acquire mode key ok failed =>
    cases o with
    | ok =>
      cases connected
      · cases h
      · cases waiting
        · cases h
          exact .requested rfl rfl
        · obtain ⟨hgrant, heq⟩ := Option.ite_none_right_eq_some.mp h
          cases heq
          exact .granted rfl rfl hgrant
    | refused => cases h
    | failed effect =>
      cases connected
      · cases effect <;> cases h <;> exact .notAsked (Or.inl rfl)
      · cases waiting
        · cases effect <;> cases h <;> exact .notAsked (Or.inr rfl)
        · cases effect
          · cases h
            exact .withdrawn rfl rfl
          · obtain ⟨hgrant, heq⟩ := Option.ite_none_right_eq_some.mp h
            cases heq
            exact .grantedUnseen rfl rfl hgrant
  | run stmt ok failed =>
    cases o with
    | ok =>
      cases connected
      · cases h
      · obtain ⟨⟨u, answer⟩, hrun, heq⟩ := Option.map_eq_some_iff.mp h
        cases heq
        exact .ran rfl hrun
    | refused => cases h
    | failed effect =>
      cases connected
      · cases effect <;> cases h <;> exact .notRun
      · cases effect
        · cases h
          exact .notRun
        · obtain ⟨⟨u, answer⟩, hrun, heq⟩ := Option.map_eq_some_iff.mp h
          cases heq
          exact .ranUnseen rfl hrun
  | classify stmt ok refused failed =>
    cases o with
    | ok =>
      cases connected
      · cases h
      · obtain ⟨⟨u, answer⟩, hrun, heq⟩ := Option.map_eq_some_iff.mp h
        cases heq
        exact .classifiedRan rfl hrun
    | refused =>
      cases connected
      · cases h
      · cases h
        exact .refused rfl
    | failed effect =>
      cases connected
      · cases effect <;> cases h <;> exact .classifiedNotRun
      · cases effect
        · cases h
          exact .classifiedNotRun
        · obtain ⟨⟨u, answer⟩, hrun, heq⟩ := Option.map_eq_some_iff.mp h
          cases heq
          exact .classifiedUnseen rfl hrun
  | ask yes no =>
    cases o with
    | ok =>
      cases h
      exact .answered (Or.inl rfl)
    | refused =>
      cases h
      exact .answered (Or.inr rfl)
    | failed effect => cases h
  | close next =>
    cases o with
    | ok =>
      cases h
      exact .closed
    | refused => cases h
    | failed effect => cases h
  | pass next =>
    cases o with
    | ok =>
      cases h
      exact .passed
    | refused => cases h
    | failed effect => cases h

/-! ### Systems -/

/-- A server and the programs on its sessions. A session is known by its place. -/
structure System (χ ρ : Type) where
  server : Server χ
  clients : List (Client ρ)

namespace System

/-- One turn of a session's program. -/
def advance (code : ρ → Option (Code ρ)) (s : System χ ρ) (i : Nat) (o : Outcome) : Option (System χ ρ) :=
  s.clients[i]?.bind fun c => (code c.program).bind fun next =>
    (Postgres.advance i s.server c o next).map fun (server, client) => ⟨server, s.clients.set i client⟩

/-- A new session with its program. -/
def connect (s : System χ ρ) (p : ρ) : System χ ρ :=
  { s with clients := s.clients ++ [⟨p, false, true⟩] }

/-- A session ends. -/
def lose (s : System χ ρ) (i : Nat) : Option (System χ ρ) :=
  s.clients[i]?.map fun c =>
    { server := { s.server with locks := s.server.locks.endSession i }
      clients := s.clients.set i { c with connected := false, waiting := false } }

theorem advance_eq_some {code : ρ → Option (Code ρ)} {s t : System χ ρ} {i : Nat} {o : Outcome}
    (h : s.advance code i o = some t) : ∃ c d next, s.clients[i]? = some c ∧ code c.program = some next ∧
      Advanced i s.server c next t.server d ∧ t.clients = s.clients.set i d := by
  obtain ⟨c, hc, h⟩ := Option.bind_eq_some_iff.mp h
  obtain ⟨next, hnext, h⟩ := Option.bind_eq_some_iff.mp h
  obtain ⟨⟨server, d⟩, hadvance, heq⟩ := Option.map_eq_some_iff.mp h
  cases heq
  exact ⟨c, d, next, hc, hnext, advance_some hadvance, rfl⟩

theorem lose_eq_some {s t : System χ ρ} {i : Nat} (h : s.lose i = some t) :
    ∃ c, s.clients[i]? = some c ∧ t.server = { s.server with locks := s.server.locks.endSession i } ∧
      t.clients = s.clients.set i { c with connected := false, waiting := false } := by
  obtain ⟨c, hc, rfl⟩ := Option.map_eq_some_iff.mp h
  exact ⟨c, hc, rfl, rfl⟩

end System

/-! ### Locks by the code -/

/-- A session's locks, from keys and modes. -/
def locksOf (i : Nat) (l : List (Int64 × Mode)) : List (Lock Nat Int64) := l.map fun e => ⟨i, e.1, e.2⟩

theorem locksOf_erase (i : Nat) (l : List (Int64 × Mode)) (e : Int64 × Mode) :
    locksOf i (l.erase e) = (locksOf i l).erase ⟨i, e.1, e.2⟩ := by
  have hinj : Function.Injective fun e : Int64 × Mode => (⟨i, e.1, e.2⟩ : Lock Nat Int64) := by
    intro a b h
    obtain ⟨_, hkey, hmode⟩ := Lock.mk.inj h
    exact Prod.ext hkey hmode
  exact List.map_erase hinj l

/-- What a statement leaves of the locks `l` that are said before it: a lock more or less
where it says so. After a failure that may have had an effect nothing is said. -/
def Statement.Follows {α : Type} (holds : ρ → Option (List (Int64 × Mode))) (l : Option (List (Int64 × Mode)))
    (stmt : Statement α) (ok : α → ρ) (failed : ρ) : Prop :=
  match stmt, ok with
  | .tryLock key, ok =>
    (∀ m, holds (ok true) = some m → ∃ before, l = some before ∧ m = (key, .exclusive) :: before) ∧
    (∀ m, holds (ok false) = some m → l = some m) ∧ holds failed = none
  | .unlock mode key, ok =>
    (∀ m, holds (ok ()) = some m → ∃ before, l = some before ∧ m = before.erase (key, mode)) ∧ holds failed = none
  | _, ok => (∀ answer m, holds (ok answer) = some m → l = some m) ∧ ∀ m, holds failed = some m → l = some m

/-- What a turn leaves of them. -/
def Code.Follows (holds : ρ → Option (List (Int64 × Mode))) (l : Option (List (Int64 × Mode))) : Code ρ → Prop
  | .acquire mode key ok failed =>
    (∀ m, holds ok = some m → ∃ before, l = some before ∧ m = (key, mode) :: before) ∧ holds failed = none
  | .run stmt ok failed => stmt.Follows holds l ok failed
  | .classify stmt ok refused failed => stmt.Follows holds l ok failed ∧ ∀ m, holds refused = some m → l = some m
  | .ask yes no => (∀ m, holds yes = some m → l = some m) ∧ ∀ m, holds no = some m → l = some m
  | .close _ => True
  | .pass next => ∀ m, holds next = some m → l = some m

/-- `holds` says of every state what its code leaves of it. -/
def Discipline (code : ρ → Option (Code ρ)) (holds : ρ → Option (List (Int64 × Mode))) : Prop :=
  ∀ p next, code p = some next → next.Follows holds (holds p)

theorem Statement.Follows.quiet {α : Type} {holds : ρ → Option (List (Int64 × Mode))}
    {l : Option (List (Int64 × Mode))} {stmt : Statement α} {ok : α → ρ} {failed : ρ}
    (h : stmt.Follows holds l ok failed) (hlocking : stmt.locking = false) :
    (∀ answer m, holds (ok answer) = some m → l = some m) ∧ ∀ m, holds failed = some m → l = some m := by
  cases stmt with
  | tryLock key => cases hlocking
  | unlock mode key => cases hlocking
  | find _ => exact h
  | list => exact h
  | create _ _ => exact h
  | comment _ _ => exact h
  | drop _ => exact h
  | disableConnections _ => exact h
  | terminateConnections _ => exact h
  | connectionsRemain _ => exact h

/-- A statement that was not run, or may have been. -/
theorem Statement.Follows.failed {α : Type} {holds : ρ → Option (List (Int64 × Mode))}
    {l : Option (List (Int64 × Mode))} {stmt : Statement α} {ok : α → ρ} {failed : ρ}
    (h : stmt.Follows holds l ok failed) (m : List (Int64 × Mode)) (hm : holds failed = some m) :
    l = some m := by
  cases hlocking : stmt.locking with
  | false => exact (h.quiet hlocking).2 m hm
  | true =>
    cases stmt with
    | tryLock key =>
      rw [h.2.2] at hm
      cases hm
    | unlock mode key =>
      rw [h.2] at hm
      cases hm
    | find _ => cases hlocking
    | list => cases hlocking
    | create _ _ => cases hlocking
    | comment _ _ => cases hlocking
    | drop _ => cases hlocking
    | disableConnections _ => cases hlocking
    | terminateConnections _ => cases hlocking
    | connectionsRemain _ => cases hlocking

theorem Code.follows_map {σ : Type} (f : ρ → σ) (holds : σ → Option (List (Int64 × Mode)))
    (l : Option (List (Int64 × Mode))) (next : Code ρ) :
    (next.map f).Follows holds l ↔ next.Follows (fun p => holds (f p)) l := by
  cases next with
  | acquire mode key ok failed => exact Iff.rfl
  | run stmt ok failed => cases stmt <;> exact Iff.rfl
  | classify stmt ok refused failed => cases stmt <;> exact Iff.rfl
  | ask yes no => exact Iff.rfl
  | close next => exact Iff.rfl
  | pass next => exact Iff.rfl

/-- What a session waits for. -/
def Client.requests (code : ρ → Option (Code ρ)) (i : Nat) (c : Client ρ) : List (Lock Nat Int64) :=
  match c.waiting, code c.program with
  | true, some (.acquire mode key _ _) => [⟨i, key, mode⟩]
  | _, _ => []

/-- Every session holds what its program holds, and waits for what its program waits for. -/
structure Kept (code : ρ → Option (Code ρ)) (holds : ρ → Option (List (Int64 × Mode))) (s : System χ ρ) : Prop where
  compatible : s.server.locks.Compatible
  unknown : ∀ i, s.clients[i]? = none → s.server.locks.heldBy i = [] ∧ s.server.locks.requestedBy i = []
  lost : ∀ (i : Nat) (c : Client ρ), s.clients[i]? = some c → c.connected = false →
    c.waiting = false ∧ s.server.locks.heldBy i = []
  requested : ∀ (i : Nat) (c : Client ρ), s.clients[i]? = some c →
    s.server.locks.requestedBy i = c.requests code i
  held : ∀ (i : Nat) (c : Client ρ) (l : List (Int64 × Mode)), s.clients[i]? = some c → c.connected = true →
    holds c.program = some l → s.server.locks.heldBy i = locksOf i l

section Kept
variable {code : ρ → Option (Code ρ)} {holds : ρ → Option (List (Int64 × Mode))} {s t : System χ ρ} {i : Nat}
  {c d : Client ρ}

theorem requests_goto (p : ρ) : (c.goto p).requests code i = [] := rfl

theorem requests_of_not_waiting (h : c.waiting = false) : c.requests code i = [] := by
  rw [Client.requests, h]

/-- Nobody is connected yet, and no lock is held. -/
theorem Kept.initial (locks : s.server.locks = Table.empty) (clients : s.clients = []) : Kept code holds s := by
  refine ⟨?_, fun i _ => ?_, fun i c hc => ?_, fun i c hc => ?_, fun i c l hc => ?_⟩
  · rw [locks]
    exact Table.compatible_empty
  · rw [locks]
    exact ⟨rfl, rfl⟩
  all_goals
    rw [clients] at hc
    cases hc

/-- A step of one session that leaves the locks of all others alone. -/
theorem Kept.step (hs : Kept code holds s) (hc : s.clients[i]? = some c) (clients : t.clients = s.clients.set i d)
    (compatible : t.server.locks.Compatible)
    (others : ∀ j, j ≠ i → t.server.locks.heldBy j = s.server.locks.heldBy j ∧
      t.server.locks.requestedBy j = s.server.locks.requestedBy j)
    (lost : d.connected = false → d.waiting = false ∧ t.server.locks.heldBy i = [])
    (requested : t.server.locks.requestedBy i = d.requests code i)
    (held : ∀ l, d.connected = true → holds d.program = some l → t.server.locks.heldBy i = locksOf i l) :
    Kept code holds t := by
  have hcases : ∀ {j : Nat} {e : Client ρ}, t.clients[j]? = some e →
      (j = i ∧ e = d) ∨ (j ≠ i ∧ s.clients[j]? = some e) := by
    intro j e he
    rw [clients] at he
    exact Ledger.getElem?_set_cases he
  refine ⟨compatible, fun j hj => ?_, fun j e he hconnected => ?_, fun j e he => ?_, fun j e l he hconnected hl => ?_⟩
  · rw [clients, List.getElem?_eq_none_iff, List.length_set, ← List.getElem?_eq_none_iff] at hj
    have hji : j ≠ i := fun hji => by
      rw [hji, hc] at hj
      cases hj
    rw [(others j hji).1, (others j hji).2]
    exact hs.unknown j hj
  · obtain ⟨rfl, rfl⟩ | ⟨hji, he⟩ := hcases he
    · exact lost hconnected
    · rw [(others j hji).1]
      exact hs.lost j e he hconnected
  · obtain ⟨rfl, rfl⟩ | ⟨hji, he⟩ := hcases he
    · exact requested
    · rw [(others j hji).2]
      exact hs.requested j e he
  · obtain ⟨rfl, rfl⟩ | ⟨hji, he⟩ := hcases he
    · exact held l hconnected hl
    · rw [(others j hji).1]
      exact hs.held j e l he hconnected hl

/-- A step that leaves the lock table alone. -/
theorem Kept.goto (hs : Kept code holds s) (hc : s.clients[i]? = some c) (clients : t.clients = s.clients.set i d)
    (locks : t.server.locks = s.server.locks) (connected : d.connected = c.connected)
    (requested : c.requests code i = d.requests code i) (waiting : c.connected = false → d.waiting = false)
    (held : ∀ l, holds d.program = some l → holds c.program = some l) : Kept code holds t := by
  refine hs.step hc clients (locks ▸ hs.compatible) (fun j _ => by rw [locks]; exact ⟨rfl, rfl⟩)
    (fun hlost => ?_) ?_ fun l hd hl => ?_
  · rw [connected] at hlost
    rw [locks]
    exact ⟨waiting hlost, (hs.lost i c hc hlost).2⟩
  · rw [locks, hs.requested i c hc, requested]
  · rw [locks]
    exact hs.held i c l hc (connected ▸ hd) (held l hl)

/-- A session that waits asks for what its code says. -/
theorem Kept.requests_acquire (hs : Kept code holds s) (hc : s.clients[i]? = some c)
    {mode : Mode} {key : Int64} {ok failed : ρ} (hcode : code c.program = some (.acquire mode key ok failed))
    (hwaiting : c.waiting = true) : s.server.locks.requestedBy i = [⟨i, key, mode⟩] := by
  rw [hs.requested i c hc, Client.requests, hwaiting, hcode]

/-- Code that asks for a lock. -/
def Code.acquires : Code ρ → Bool
  | .acquire .. => true
  | _ => false

/-- A session that does anything else does not wait. -/
theorem requests_nil {next : Code ρ} (hcode : code c.program = some next) (hnext : next.acquires = false) :
    c.requests code i = [] := by
  rw [Client.requests, hcode]
  cases next with
  | acquire => cases hnext
  | _ => cases c.waiting <;> rfl

/-- A lock that is granted, to a session that goes on with it. -/
theorem Kept.grant (hs : Kept code holds s) (hc : s.clients[i]? = some c) (p : ρ)
    (clients : t.clients = s.clients.set i (c.goto p)) {mode : Mode} {key : Int64} {ok failed : ρ}
    (hcode : code c.program = some (.acquire mode key ok failed)) (hconnected : c.connected = true)
    (hwaiting : c.waiting = true) (hgrant : s.server.locks.grantable ⟨i, key, mode⟩ = true)
    (locks : t.server.locks = s.server.locks.grant ⟨i, key, mode⟩)
    (held : ∀ l, holds p = some l → ∃ before, holds c.program = some before ∧ l = (key, mode) :: before) :
    Kept code holds t := by
  refine hs.step hc clients (locks ▸ hs.compatible.grant hgrant) (fun j hj => ?_) (fun hlost => ?_) ?_
    fun l _ hl => ?_
  · rw [locks, Table.heldBy_grant, if_neg (Ne.symm hj), Table.requestedBy_grant_of_ne (Ne.symm hj)]
    exact ⟨rfl, rfl⟩
  · rw [show (c.goto p).connected = c.connected from rfl, hconnected] at hlost
    cases hlost
  · rw [locks, Table.requestedBy_grant, hs.requests_acquire hc hcode hwaiting, List.erase_cons_head]
    rfl
  · obtain ⟨before, hbefore, rfl⟩ := held l hl
    rw [locks, Table.heldBy_grant, if_pos rfl, hs.held i c before hc hconnected hbefore]
    rfl

/-- A statement that changes the lock table has changed its own session's locks. -/
theorem Kept.run {α : Type} {stmt : Statement α} {ok : α → ρ} {failed : ρ} {answer : α} {u : Server χ}
    (hd : stmt.Follows holds (holds c.program) ok failed) (hs : Kept code holds s) (hc : s.clients[i]? = some c)
    (hnowait : c.requests code i = []) (hconnected : c.connected = true)
    (hrun : s.server.execute i stmt = some (u, answer)) (p : ρ) (hp : p = ok answer ∨ p = failed)
    (server : t.server = u) (clients : t.clients = s.clients.set i (c.goto p)) : Kept code holds t := by
  have hframe := Server.execute_lockFrame hrun
  have hconnected' : (c.goto p).connected = false → False := fun h => by
    rw [show (c.goto p).connected = c.connected from rfl, hconnected] at h
    cases h
  -- a program that goes on with the locks that are said for it
  have hstep : (∀ l, holds p = some l → u.locks.heldBy i = locksOf i l) → Kept code holds t := by
    intro held
    refine hs.step hc clients (server ▸ hframe.compatible hs.compatible) (fun j hj => ?_)
      (fun h => (hconnected' h).elim) ?_ fun l _ hl => ?_
    · rw [server]
      exact ⟨hframe.others j hj, hframe.requested j⟩
    · rw [server, hframe.requested, hs.requested i c hc, hnowait, requests_goto]
    · rw [server]
      exact held l hl
  have hheld : ∀ l, holds c.program = some l → s.server.locks.heldBy i = locksOf i l :=
    fun l => hs.held i c l hc hconnected
  cases hlocking : stmt.locking with
  | false =>
    obtain ⟨hok, hfailed⟩ := hd.quiet hlocking
    refine hstep fun l hl => ?_
    rw [Server.execute_locks hrun hlocking]
    rcases hp with rfl | rfl
    · exact hheld l (hok answer l hl)
    · exact hheld l (hfailed l hl)
  | true =>
    cases stmt with
    | tryLock key =>
      obtain ⟨htrue, hfalse, hfailed⟩ := hd
      refine hstep fun l hl => ?_
      rcases hp with rfl | rfl
      · rw [Server.execute] at hrun
        split at hrun
        · cases hrun
          obtain ⟨before, hbefore, rfl⟩ := htrue l hl
          rw [Table.heldBy_take, if_pos rfl, hheld before hbefore]
          rfl
        · cases hrun
          exact hheld l (hfalse l hl)
      · rw [hfailed] at hl
        cases hl
    | unlock mode key =>
      obtain ⟨hok, hfailed⟩ := hd
      refine hstep fun l hl => ?_
      rcases hp with rfl | rfl
      · cases hrun
        obtain ⟨before, hbefore, rfl⟩ := hok l hl
        rw [Table.heldBy_release, hheld before hbefore]
        exact (locksOf_erase i before (key, mode)).symm
      · rw [hfailed] at hl
        cases hl
    | find _ => cases hlocking
    | list => cases hlocking
    | create _ _ => cases hlocking
    | comment _ _ => cases hlocking
    | drop _ => cases hlocking
    | disableConnections _ => cases hlocking
    | terminateConnections _ => cases hlocking
    | connectionsRemain _ => cases hlocking

/-- A session that ends, by its program or not. -/
theorem Kept.ended (hs : Kept code holds s) (hc : s.clients[i]? = some c)
    (server : t.server = { s.server with locks := s.server.locks.endSession i })
    (clients : t.clients = s.clients.set i d) (connected : d.connected = false) (waiting : d.waiting = false) :
    Kept code holds t := by
  refine hs.step hc clients ?_ (fun j hj => ?_) (fun _ => ⟨waiting, ?_⟩) ?_ fun l hd => ?_
  · rw [server]
    exact hs.compatible.endSession i
  · rw [server, Table.heldBy_endSession, Table.requestedBy_endSession, if_neg (Ne.symm hj), if_neg (Ne.symm hj)]
    exact ⟨rfl, rfl⟩
  · rw [server, Table.heldBy_endSession, if_pos rfl]
  · rw [server, Table.requestedBy_endSession, if_pos rfl, requests_of_not_waiting waiting]
  · rw [connected] at hd
    cases hd

theorem Kept.advance (hd : Discipline code holds) (hs : Kept code holds s) {o : Outcome}
    (h : s.advance code i o = some t) : Kept code holds t := by
  obtain ⟨c, d, next, hc, hcode, hadvanced, clients⟩ := System.advance_eq_some h
  -- what a failed request leaves is not said
  have hnothing : ∀ {mode key ok failed}, code c.program = some (.acquire mode key ok failed) →
      ∀ l : List (Int64 × Mode), holds failed = some l → False := by
    intro mode key ok failed hcode l hl
    rw [(hd _ _ hcode).2] at hl
    cases hl
  generalize ht : t.server = u at hadvanced
  cases hadvanced with
  | @requested mode key ok failed hconnected hwaiting =>
    have hnone := (hs.requested i c hc).trans (requests_of_not_waiting hwaiting)
    refine hs.step hc clients ?_ (fun j hj => ?_) (fun hlost => ?_) ?_ fun l hconnected' hl => ?_
    · rw [ht]
      exact hs.compatible
    · rw [ht, Table.heldBy_request, Table.requestedBy_request, if_neg (Ne.symm hj)]
      exact ⟨rfl, rfl⟩
    · rw [hconnected] at hlost
      cases hlost
    · rw [ht, Table.requestedBy_request, if_pos rfl, hnone, Client.requests, hcode]
      rfl
    · rw [ht, Table.heldBy_request]
      exact hs.held i c l hc hconnected hl
  | granted hconnected hwaiting hgrant =>
    exact hs.grant hc _ clients hcode hconnected hwaiting hgrant (by rw [ht]) (hd _ _ hcode).1
  | grantedUnseen hconnected hwaiting hgrant =>
    exact hs.grant hc _ clients hcode hconnected hwaiting hgrant (by rw [ht]) fun l hl => (hnothing hcode l hl).elim
  | withdrawn hconnected hwaiting =>
    refine hs.step hc clients ?_ (fun j hj => ?_) (fun hlost => ?_) ?_ fun l _ hl => (hnothing hcode l hl).elim
    · rw [ht]
      exact hs.compatible
    · rw [ht, Table.heldBy_withdraw, Table.requestedBy_withdraw_of_ne (Ne.symm hj)]
      exact ⟨rfl, rfl⟩
    · rw [show (c.goto _).connected = c.connected from rfl, hconnected] at hlost
      cases hlost
    · rw [ht, Table.requestedBy_withdraw, hs.requests_acquire hc hcode hwaiting, List.erase_cons_head]
      rfl
  | notAsked hquiet =>
    have hwaiting : c.waiting = false := hquiet.elim (fun h => (hs.lost i c hc h).1) id
    exact hs.goto hc clients (by rw [ht]) rfl ((requests_of_not_waiting hwaiting).trans (requests_goto _).symm)
      (fun _ => rfl) fun l hl => (hnothing hcode l hl).elim
  | ran hconnected hrun =>
    exact Kept.run (hd _ _ hcode) hs hc (requests_nil hcode rfl) hconnected hrun _ (Or.inl rfl) ht clients
  | ranUnseen hconnected hrun =>
    exact Kept.run (hd _ _ hcode) hs hc (requests_nil hcode rfl) hconnected hrun _ (Or.inr rfl) ht clients
  | notRun =>
    exact hs.goto hc clients (by rw [ht]) rfl ((requests_nil hcode rfl).trans (requests_goto _).symm)
      (fun _ => rfl) (Statement.Follows.failed (hd _ _ hcode))
  | classifiedRan hconnected hrun =>
    exact Kept.run (hd _ _ hcode).1 hs hc (requests_nil hcode rfl) hconnected hrun _ (Or.inl rfl) ht clients
  | classifiedUnseen hconnected hrun =>
    exact Kept.run (hd _ _ hcode).1 hs hc (requests_nil hcode rfl) hconnected hrun _ (Or.inr rfl) ht clients
  | classifiedNotRun =>
    exact hs.goto hc clients (by rw [ht]) rfl ((requests_nil hcode rfl).trans (requests_goto _).symm)
      (fun _ => rfl) (Statement.Follows.failed (hd _ _ hcode).1)
  | refused =>
    exact hs.goto hc clients (by rw [ht]) rfl ((requests_nil hcode rfl).trans (requests_goto _).symm)
      (fun _ => rfl) (hd _ _ hcode).2
  | answered hcases =>
    refine hs.goto hc clients (by rw [ht]) rfl ((requests_nil hcode rfl).trans (requests_goto _).symm)
      (fun _ => rfl) fun l hl => ?_
    rcases hcases with rfl | rfl
    · exact (hd _ _ hcode).1 l hl
    · exact (hd _ _ hcode).2 l hl
  | closed => exact hs.ended hc ht clients rfl rfl
  | passed =>
    exact hs.goto hc clients (by rw [ht]) rfl ((requests_nil hcode rfl).trans (requests_goto _).symm) (fun _ => rfl)
      (hd _ _ hcode)

theorem Kept.connect (hs : Kept code holds s) (p : ρ) (hp : ∀ l, holds p = some l → l = []) :
    Kept code holds (s.connect p) := by
  have hnew := hs.unknown s.clients.length (List.getElem?_eq_none_iff.mpr (Nat.le_refl _))
  refine ⟨hs.compatible, fun j hj => hs.unknown j ?_, fun j e he hconnected => ?_, fun j e he => ?_,
    fun j e l he hconnected hl => ?_⟩
  · rw [List.getElem?_eq_none_iff] at hj ⊢
    exact Nat.le_trans (by simp [System.connect]) hj
  · obtain ⟨_, rfl⟩ | he := Ledger.getElem?_concat_cases he
    · cases hconnected
    · exact hs.lost j e he hconnected
  · obtain ⟨rfl, rfl⟩ | he := Ledger.getElem?_concat_cases he
    · exact hnew.2
    · exact hs.requested j e he
  · obtain ⟨rfl, rfl⟩ | he := Ledger.getElem?_concat_cases he
    · rw [hp l hl]
      exact hnew.1
    · exact hs.held j e l he hconnected hl

theorem Kept.lose (hs : Kept code holds s) (h : s.lose i = some t) : Kept code holds t := by
  obtain ⟨c, hc, server, clients⟩ := System.lose_eq_some h
  exact hs.ended hc server clients rfl rfl

/-- A step of nobody's, which leaves the lock table alone. -/
theorem Kept.of_locks (hs : Kept code holds s) (locks : t.server.locks = s.server.locks)
    (clients : t.clients = s.clients) : Kept code holds t := by
  refine ⟨locks ▸ hs.compatible, fun j hj => ?_, fun j e he hlost => ?_, fun j e he => ?_,
    fun j e l he hconnected hl => ?_⟩
  · rw [locks]
    exact hs.unknown j (clients ▸ hj)
  · rw [locks]
    exact hs.lost j e (clients ▸ he) hlost
  · rw [locks]
    exact hs.requested j e (clients ▸ he)
  · rw [locks]
    exact hs.held j e l (clients ▸ he) hconnected hl

/-- A lock that a session has by its program. -/
theorem Kept.mem_held (hs : Kept code holds s) {l : List (Int64 × Mode)} {key : Int64} {mode : Mode}
    (hc : s.clients[i]? = some c) (hconnected : c.connected = true) (hl : holds c.program = some l)
    (hkey : (key, mode) ∈ l) : (⟨i, key, mode⟩ : Lock Nat Int64) ∈ s.server.locks.held := by
  have hmem : (⟨i, key, mode⟩ : Lock Nat Int64) ∈ s.server.locks.heldBy i := by
    rw [hs.held i c l hc hconnected hl]
    exact List.mem_map.mpr ⟨_, hkey, rfl⟩
  exact (Table.mem_heldBy.mp hmem).1

/-- Nobody else has a key that a session has exclusively. -/
theorem Kept.exclusive (hs : Kept code holds s) {j : Nat} {l m : List (Int64 × Mode)} {key : Int64} {mode : Mode}
    (hc : s.clients[i]? = some c) (hconnected : c.connected = true) (hl : holds c.program = some l)
    (hkey : (key, .exclusive) ∈ l) (hd : s.clients[j]? = some d) (hconnected' : d.connected = true)
    (hm : holds d.program = some m) (hkey' : (key, mode) ∈ m) : j = i :=
  hs.compatible.alone (hs.mem_held hc hconnected hl hkey) (hs.mem_held hd hconnected' hm hkey') rfl rfl

end Kept
end PostgresTestHarness.Postgres
