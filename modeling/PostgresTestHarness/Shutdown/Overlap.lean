import PostgresTestHarness.Prewarm.Capacity
import PostgresTestHarness.Shutdown.System

/-! What is closed when the cleanup queue is closed.

The call that closes the queue has closed every pool of its own list, and the registry
stays empty once admission is closed and somebody has taken it. So an open pool is on the
list of another call (`Coordinated`), and an idle database that the queue has not accepted
is in the hands of a closer (`Ledgered`): overlaps with those are all that can go wrong. -/
namespace PostgresTestHarness.Shutdown

namespace Call

/-- The pools a call has still to close. -/
def inHand : Call → List Nat
  | .closing rest => rest
  | .upgraded p rest => p :: rest
  | .queueing _ _ rest => rest
  | _ => []

def tookPools : Call → Bool
  | .called | .admissionClosed => false
  | _ => true

end Call

/-- Where the pools of a server can be. -/
structure Coordinated (s : State) : Prop where
  reachable : ∀ (p : Nat) (pool : Pool), s.pools[p]? = some pool →
    (Prewarm.machine pool.capacity).Reachable pool.state
  admission : ∀ (c : Nat) (call : Call), s.calls[c]? = some call → call ≠ .called → s.admissionClosed = true
  registry : ∀ (c : Nat) (call : Call), s.calls[c]? = some call → call.tookPools = true → s.registry = []
  listed : ∀ (p : Nat) (pool : Pool), s.pools[p]? = some pool → pool.state.pool.accepting = true →
    p ∈ s.registry ∨ p ∈ s.calls.flatMap Call.inHand

/-- As long as the queue is open, an idle database of a closed pool is accepted or still
in the hands of a closer. -/
structure Ledgered (s : State) : Prop where
  known : ∀ p n, s.pools.length ≤ p → s.idled.count (p, n) = 0 ∧ s.accepted.count (p, n) = 0
  fresh : ∀ (p : Nat) (pool : Pool), s.pools[p]? = some pool → pool.state.pool.cleanupStarted = false →
    ∀ n, s.idled.count (p, n) = 0
  once : ∀ p n, s.idled.count (p, n) ≤ 1
  balance : s.queueClosed = false → ∀ (p : Nat) (pool : Pool), s.pools[p]? = some pool → ∀ n,
    s.idled.count (p, n) = s.accepted.count (p, n) + pool.state.taken.count n

/-- What the barrier of a shutdown is for. -/
structure Settled (s : State) : Prop where
  admission : s.admissionClosed = true
  closed : ∀ (p : Nat) (pool : Pool), s.pools[p]? = some pool → pool.state.alive = true →
    pool.state.pool.accepting = false
  accepted : ∀ (p : Nat) (pool : Pool), s.pools[p]? = some pool → pool.state.alive = true →
    ∀ name, (p, name) ∈ s.idled → (p, name) ∈ s.accepted

/-- No other shutdown call has an open pool left on its list, and nobody holds idle
databases of a pool without having submitted them. -/
structure Alone (s : State) (c : Nat) : Prop where
  calls : ∀ (d : Nat) (call : Call), d ≠ c → s.calls[d]? = some call → ∀ p ∈ call.inHand,
    ∀ pool : Pool, s.pools[p]? = some pool → pool.state.alive = true → pool.state.pool.accepting = false
  closers : ∀ (p : Nat) (pool : Pool), s.pools[p]? = some pool → pool.state.alive = true →
    ∀ closer ∈ pool.state.closers, closer.ready = []

section Pools
variable {capacity : Nat} {s t : Prewarm.State} {a : Prewarm.Action}

theorem idles_of_eq (h : t.pool.cleanupStarted = s.pool.cleanupStarted) : idles s t = [] := by
  refine if_neg fun hboth => ?_
  rw [h, hboth.1] at hboth
  cases hboth.2

theorem taken_append_count (closers : List Prewarm.Closer) (ready : List Text) (n : Text) :
    ((closers ++ [Prewarm.Closer.begun ready]).flatMap (·.ready)).count n =
      (closers.flatMap (·.ready)).count n + ready.count n := by
  rw [List.flatMap_append, List.count_append, List.flatMap_singleton]
  rfl

/-- A closing step takes the idle databases, unless an earlier one has. -/
theorem taken_of_cleanup {q : Prewarm.PrewarmPoolState} (n : Text)
    (started : q.cleanupStarted = s.pool.cleanupStarted) (ready : q.ready = s.pool.ready)
    (pool : t.pool = (q.beginCleanup capacity).value.2)
    (closers : t.closers = s.closers ++ [.begun ((q.beginCleanup capacity).value.1.getD [])]) :
    t.taken.count n = s.taken.count n + (idles s t).count n := by
  have hstarted : t.pool.cleanupStarted = true := by
    rw [pool, (Prewarm.PrewarmPoolState.beginCleanup_cleaned q capacity).started]
  have hidles : idles s t = (q.beginCleanup capacity).value.1.getD [] := by
    rw [idles, hstarted, Prewarm.PrewarmPoolState.beginCleanup, started]
    cases s.pool.cleanupStarted
    · exact ready.symm
    · rfl
  rw [hidles, Prewarm.State.taken, closers]
  exact taken_append_count s.closers _ n

theorem taken_of_unchanged {n : Text} (started : t.pool.cleanupStarted = s.pool.cleanupStarted)
    (h : t.taken.count n + (accepts s a).count n = s.taken.count n) :
    t.taken.count n + (accepts s a).count n = s.taken.count n + (idles s t).count n := by
  rw [idles_of_eq started]
  exact h

/-- An idle database leaves its closer only with the queue's answer. -/
theorem taken_step (h : Prewarm.Transition capacity s a t) (hopen : ∀ i, a ≠ .queueTaken i false)
    (n : Text) :
    t.taken.count n + (accepts s a).count n = s.taken.count n + (idles s t).count n := by
  cases h with
  | move a own i x next existing used task rule =>
    refine taken_of_unchanged rfl ?_
    have haccepts : accepts s a = [] := by
      cases a with
      | queueTaken j accepted => exact absurd rfl (own j accepted)
      | _ => rfl
    rw [haccepts]
    rfl
  | failPhase i origin phase task =>
    cases phase with
    | complete => exact taken_of_unchanged rfl (taken_append_count s.closers [] n)
    | deleting =>
      exact taken_of_cleanup (q := { s.pool with deleting := s.pool.deleting - 1 }) n rfl rfl rfl rfl
    | creating =>
      exact taken_of_cleanup (q := { s.pool with creating := s.pool.creating - 1 }) n rfl rfl rfl rfl
  | beginClose pending => exact taken_of_cleanup n rfl rfl rfl rfl
  | closeSemaphores i ready closer =>
    refine taken_of_unchanged rfl ?_
    have htaken : ((s.closers.set i (.queueing ready)).flatMap (·.ready)).count n + ready.count n =
      s.taken.count n + ready.count n := Ledger.count_flatMap_set _ n s.closers i _ _ closer
    exact Nat.add_right_cancel htaken
  | queueTaken i name rest accepted closer =>
    refine taken_of_unchanged rfl ?_
    cases accepted with
    | false => exact absurd rfl (hopen i)
    | true =>
      have htaken : ((s.closers.set i (.queueing rest)).flatMap (·.ready)).count n +
          (name :: rest).count n = s.taken.count n + rest.count n :=
        Ledger.count_flatMap_set _ n s.closers i _ _ closer
      have haccepts : accepts s (.queueTaken i true) = [name] := by
        simp only [accepts, closer]
      rw [← List.singleton_append, List.count_append] at htaken
      rw [haccepts]
      show ((s.closers.set i (.queueing rest)).flatMap (·.ready)).count n + _ = _
      omega
  | finishClose i closer =>
    refine taken_of_unchanged rfl ?_
    exact Ledger.count_flatMap_set (fun c : Prewarm.Closer => c.ready) n s.closers i _ .finished closer
  | published i origin name task opened fresh pool result
  | late i origin name task closed pool result =>
    subst result
    exact taken_of_unchanged rfl rfl
  | lease name rest checkout opened ready pool result | giveUp i name lease alive pool result
  | refill i task opened fresh pool result =>
    subst result
    exact taken_of_unchanged rfl rfl
  | _ => exact taken_of_unchanged rfl rfl

end Pools

section Steps
variable {s t : State} {a : Action} {p : Nat} {b : Prewarm.Action} {pool : Pool} {next : Prewarm.State}

/-- A step of one pool leaves the others alone. -/
theorem Advanced.pool_cases (h : Advanced s t p b pool next) {q : Nat} {found : Pool}
    (hq : t.pools[q]? = some found) :
    (q = p ∧ found = { pool with state := next }) ∨ (q ≠ p ∧ s.pools[q]? = some found) := by
  rw [h.result] at hq
  exact Ledger.getElem?_set_cases hq

theorem Coordinated.advance (hs : Coordinated s) (h : Advanced s t p b pool next) :
    Coordinated t := by
  have hcalls : t.calls = s.calls := by rw [h.result]
  have hregistry : t.registry = s.registry := by rw [h.result]
  have hadmission : t.admissionClosed = s.admissionClosed := by rw [h.result]
  refine ⟨fun q found hq => ?_, fun c call hc hne => ?_, fun c call hc htook => ?_, fun q found hq hopened => ?_⟩
  · rcases h.pool_cases hq with ⟨rfl, rfl⟩ | ⟨_, hq⟩
    · exact (hs.reachable q pool h.found).next b h.stepped
    · exact hs.reachable q found hq
  · rw [hadmission]
    exact hs.admission c call (hcalls ▸ hc) hne
  · rw [hregistry]
    exact hs.registry c call (hcalls ▸ hc) htook
  · rw [hregistry, hcalls]
    rcases h.pool_cases hq with ⟨rfl, rfl⟩ | ⟨_, hq⟩
    · refine hs.listed q pool h.found ?_
      by_contra hclosed
      have hstep := Prewarm.step_transition pool.capacity pool.state next b h.stepped
      rw [Prewarm.closed_step hstep (Bool.not_eq_true _ ▸ hclosed)] at hopened
      cases hopened
    · exact hs.listed q found hq hopened

/-- A call goes on; the pools that leave its list are closed. -/
theorem Coordinated.move (hs : Coordinated s) {c : Nat} {call : Call} (call' : Call)
    (hc : s.calls[c]? = some call) (htook : call.tookPools = true)
    (hhand : ∀ p ∈ call.inHand, p ∈ call'.inHand ∨
      ∀ pool : Pool, s.pools[p]? = some pool → pool.state.pool.accepting = false) :
    Coordinated (s.moveCall c call') := by
  have hregistry := hs.registry c call hc htook
  refine ⟨hs.reachable, fun _ _ _ _ => ?_, fun _ _ _ _ => hregistry, fun q found hq hopened => ?_⟩
  · refine hs.admission c call hc fun hcalled => ?_
    rw [hcalled] at htook
    cases htook
  · refine Or.inr ?_
    rcases hs.listed q found hq hopened with hlisted | hlisted
    · rw [hregistry] at hlisted
      cases hlisted
    · refine Ledger.mem_flatMap_set Call.inHand hc (fun hin => ?_) hlisted
      rcases hhand q hin with hin | hclosed
      · exact hin
      · rw [hclosed found hq] at hopened
        cases hopened

theorem beginClose_closes {capacity : Nat} {u v : Prewarm.State}
    (h : u.step capacity .beginClose = some v) : v.pool.accepting = false := by
  simp only [Prewarm.State.step, Prewarm.State.beginClose] at h
  split at h
  · cases h
  · cases h
    exact (Prewarm.PrewarmPoolState.beginCleanup_cleaned u.pool capacity).accepting

theorem coordinated_step (h : Transition s a t) (hs : Coordinated s) : Coordinated t := by
  cases h with
  | failClosed => exact ⟨hs.reachable, fun _ _ _ _ => rfl, hs.registry, hs.listed⟩
  | refused => exact hs
  | registered capacity opened =>
    refine ⟨fun q found hq => ?_, hs.admission, fun c call hc htook => ?_, fun q found hq hopened => ?_⟩
    · rcases Ledger.getElem?_concat_cases hq with ⟨_, rfl⟩ | hq
      · exact .start rfl
      · exact hs.reachable q found hq
    · have hcalled : call ≠ .called := fun hcalled => by
        rw [hcalled] at htook
        cases htook
      rw [hs.admission c call hc hcalled] at opened
      cases opened
    · rcases Ledger.getElem?_concat_cases hq with ⟨rfl, _⟩ | hq
      · exact Or.inl (List.mem_append_right _ List.mem_cons_self)
      · rcases hs.listed q found hq hopened with hlisted | hlisted
        · refine Or.inl (List.mem_append_left _ (List.mem_filter.mpr ⟨hlisted, ?_⟩))
          rw [State.alive, hq, Option.any_some]
          exact Prewarm.alive_of_accepting (Prewarm.closing (hs.reachable q found hq)) hopened
        · exact Or.inr hlisted
  | pool p a _ pool next allowed advanced => exact hs.advance advanced
  | shutdown =>
    refine ⟨hs.reachable, fun c call hc hne => ?_, fun c call hc htook => ?_, fun q found hq hopened => ?_⟩
    · rcases Ledger.getElem?_concat_cases hc with ⟨_, rfl⟩ | hc
      · exact absurd rfl hne
      · exact hs.admission c call hc hne
    · rcases Ledger.getElem?_concat_cases hc with ⟨_, rfl⟩ | hc
      · cases htook
      · exact hs.registry c call hc htook
    · refine (hs.listed q found hq hopened).imp id fun hlisted => ?_
      rw [List.flatMap_append]
      exact List.mem_append_left _ hlisted
  | closeAdmission c call =>
    refine ⟨hs.reachable, fun _ _ _ _ => rfl, fun d other hd htook => ?_, fun q found hq hopened => ?_⟩
    · rcases Ledger.getElem?_set_cases hd with ⟨_, rfl⟩ | ⟨_, hd⟩
      · cases htook
      · exact hs.registry d other hd htook
    · exact (hs.listed q found hq hopened).imp id
        (Ledger.mem_flatMap_set Call.inHand call fun hin => nomatch hin)
  | takePools c call =>
    have hclosed := hs.admission c _ call nofun
    refine ⟨hs.reachable, fun _ _ _ _ => hclosed, fun _ _ _ _ => rfl, fun q found hq hopened => ?_⟩
    refine Or.inr ?_
    rcases hs.listed q found hq hopened with hlisted | hlisted
    · have hlt := (List.getElem?_eq_some_iff.mp call).1
      exact List.mem_flatMap.mpr ⟨_, List.mem_set hlt _, hlisted⟩
    · exact Ledger.mem_flatMap_set Call.inHand call (fun hin => nomatch hin) hlisted
  | upgrade c p rest u pool next call advanced =>
    have hcall : u.calls[c]? = some (.closing (p :: rest)) := by rw [advanced.result, call]
    exact (hs.advance advanced).move (.upgraded p rest) hcall rfl fun q hq => Or.inl hq
  | expired c p rest call gone =>
    refine hs.move (.closing rest) call rfl fun q hq => ?_
    rcases List.mem_cons.mp hq with rfl | hq
    · refine Or.inr fun found hfound => ?_
      by_contra hopened
      have halive := Prewarm.alive_of_accepting (Prewarm.closing (hs.reachable q found hfound))
        (Bool.not_eq_false _ ▸ hopened)
      rw [State.alive, hfound, Option.any_some, halive] at gone
      cases gone
    · exact Or.inl hq
  | beginPoolClose c p rest u pool next call advanced =>
    have hcall : u.calls[c]? = some (.upgraded p rest) := by rw [advanced.result, call]
    refine (hs.advance advanced).move _ hcall rfl fun q hq => ?_
    rcases List.mem_cons.mp hq with rfl | hq
    · refine Or.inr fun found hfound => ?_
      rcases advanced.pool_cases hfound with ⟨_, rfl⟩ | ⟨hne, _⟩
      · exact beginClose_closes advanced.stepped
      · exact absurd rfl hne
    · exact Or.inl hq
  | poolClosed c p k rest pool call found done => 
    exact hs.move (.closing rest) call rfl fun q hq => Or.inl hq
  | closeQueue c call =>
    have := hs.move .finished call rfl fun q hq => nomatch hq
    exact ⟨this.reachable, this.admission, this.registry, this.listed⟩

theorem coordinated (h : machine.Reachable s) : Coordinated s := by
  have hinv : machine.Invariant Coordinated := by
    refine ⟨?_, fun s a t _ hs hstep => coordinated_step (step_transition s t a hstep) hs⟩
    intro _ heq
    obtain rfl := heq
    exact ⟨nofun, nofun, nofun, nofun⟩
  exact hinv.holds h

theorem count_pair (p q : Nat) (n : Text) (names : List Text) :
    (names.map fun name => (p, name)).count (q, n) = if q = p then names.count n else 0 := by
  by_cases hqp : q = p
  · subst hqp
    rw [if_pos rfl]
    exact List.count_map_of_injective names (fun name => (q, name)) (fun _ _ h => (Prod.mk.inj h).2) n
  · rw [if_neg hqp, List.count_eq_zero, List.mem_map]
    intro hparts
    obtain ⟨name, _, heq⟩ := hparts
    exact hqp (Prod.mk.inj heq).1.symm

theorem Advanced.idled_count (h : Advanced s t p b pool next) (q : Nat) (n : Text) :
    t.idled.count (q, n) =
      s.idled.count (q, n) + if q = p then (idles pool.state next).count n else 0 := by
  rw [h.result, List.count_append, count_pair]

theorem Advanced.accepted_count (h : Advanced s t p b pool next) (q : Nat) (n : Text) :
    t.accepted.count (q, n) =
      s.accepted.count (q, n) + if q = p then (accepts pool.state b).count n else 0 := by
  rw [h.result, List.count_append, count_pair]

/-- A pool that has not begun its cleanup now had not begun it before. -/
theorem not_started_before {capacity : Nat} {u v : Prewarm.State}
    (hu : (Prewarm.machine capacity).Reachable u) (h : u.step capacity b = some v)
    (hv : v.pool.cleanupStarted = false) : u.pool.cleanupStarted = false := by
  have hafter := (Prewarm.closing (hu.next b h)).started
  have hbefore := (Prewarm.closing hu).started
  rw [hv] at hafter
  by_contra hstarted
  rw [Bool.not_eq_false] at hstarted
  rw [hstarted] at hbefore
  have hclosed : u.pool.accepting = false := by simpa using hbefore.symm
  rw [Prewarm.closed_step (Prewarm.step_transition capacity u v b h) hclosed] at hafter
  cases hafter

theorem idles_count_le {capacity : Nat} {u : Prewarm.State}
    (hu : (Prewarm.machine capacity).Reachable u) (v : Prewarm.State) (n : Text) :
    (idles u v).count n ≤ 1 := by
  have howned := Prewarm.owned hu
  have hready : u.pool.ready.count n ≤ 1 := by
    have hcount := howned.count n
    have hone := List.nodup_iff_count_le_one.mp howned.nodup n
    rw [Prewarm.count_owned] at hcount
    omega
  rw [idles]
  split
  · exact hready
  · exact Nat.zero_le 1

/-- The records of a pool's step: what it took, and what the queue accepted. -/
theorem Ledgered.advance (hs : Ledgered s)
    (hreach : (Prewarm.machine pool.capacity).Reachable pool.state) (h : Advanced s t p b pool next)
    (hopen : s.queueClosed = false → ∀ i, b ≠ .queueTaken i false) : Ledgered t := by
  have hlength : t.pools.length = s.pools.length := by rw [h.result, List.length_set]
  have hlt := (List.getElem?_eq_some_iff.mp h.found).1
  refine ⟨fun q n hq => ?_, fun q found hq hstarted n => ?_, fun q n => ?_, fun hqueue q found hq n => ?_⟩
  · rw [hlength] at hq
    have hne : q ≠ p := by omega
    rw [h.idled_count, h.accepted_count, if_neg hne, if_neg hne]
    exact hs.known q n hq
  · rw [h.idled_count]
    rcases h.pool_cases hq with ⟨rfl, rfl⟩ | ⟨hne, hq⟩
    · have hbefore := not_started_before hreach h.stepped hstarted
      rw [if_pos rfl, hs.fresh q pool h.found hbefore n, idles_of_eq (hstarted.trans hbefore.symm)]
      rfl
    · rw [if_neg hne, hs.fresh q found hq hstarted n]
  · rw [h.idled_count]
    by_cases hqp : q = p
    · subst hqp
      rw [if_pos rfl]
      by_cases hbefore : pool.state.pool.cleanupStarted = false
      · rw [hs.fresh q pool h.found hbefore n, Nat.zero_add]
        exact idles_count_le hreach next n
      · have hidles : idles pool.state next = [] := if_neg fun hboth => hbefore hboth.1
        rw [hidles]
        exact hs.once q n
    · rw [if_neg hqp]
      exact hs.once q n
  · have hqueue : s.queueClosed = false := by
      rw [h.result] at hqueue
      exact hqueue
    rw [h.idled_count, h.accepted_count]
    rcases h.pool_cases hq with ⟨rfl, rfl⟩ | ⟨hne, hq⟩
    · rw [if_pos rfl, if_pos rfl]
      have hbalance := hs.balance hqueue q pool h.found n
      have htaken := taken_step (Prewarm.step_transition pool.capacity pool.state next b h.stepped)
        (hopen hqueue) n
      show _ = _ + next.taken.count n
      omega
    · rw [if_neg hne, if_neg hne]
      exact hs.balance hqueue q found hq n

theorem ledgered_step (h : Transition s a t) (hc : Coordinated s) (hs : Ledgered s) : Ledgered t := by
  cases h with
  | failClosed | shutdown | closeAdmission | takePools | expired | poolClosed =>
    exact ⟨hs.known, hs.fresh, hs.once, hs.balance⟩
  | refused => exact hs
  | registered capacity opened =>
    refine ⟨fun q n hq => ?_, fun q found hq hstarted n => ?_, hs.once, fun hqueue q found hq n => ?_⟩
    · rw [List.length_append] at hq
      exact hs.known q n (Nat.le_of_add_right_le hq)
    · rcases Ledger.getElem?_concat_cases hq with ⟨rfl, _⟩ | hq
      · exact (hs.known _ n (Nat.le_refl _)).1
      · exact hs.fresh q found hq hstarted n
    · rcases Ledger.getElem?_concat_cases hq with ⟨rfl, rfl⟩ | hq
      · obtain ⟨hidled, haccepted⟩ := hs.known _ n (Nat.le_refl _)
        rw [show List.count _ _ = 0 from hidled, show List.count (_, n) s.accepted = 0 from haccepted]
        rfl
      · exact hs.balance hqueue q found hq n
  | pool p b _ pool next allowed advanced =>
    refine hs.advance (hc.reachable p pool advanced.found) advanced fun hqueue i hb => ?_
    subst hb
    have hallowed : (false == !s.queueClosed) = true := allowed
    rw [hqueue] at hallowed
    cases hallowed
  | upgrade c p rest u pool next call advanced | beginPoolClose c p rest u pool next call advanced =>
    have := hs.advance (hc.reachable p pool advanced.found) advanced fun _ _ => nofun
    exact ⟨this.known, this.fresh, this.once, this.balance⟩
  | closeQueue c call => exact ⟨hs.known, hs.fresh, hs.once, fun hqueue => nomatch hqueue⟩

theorem ledgered (h : machine.Reachable s) : Ledgered s := by
  have hinv : machine.Invariant Ledgered := by
    refine ⟨?_, fun s a t hreach hs hstep =>
      ledgered_step (step_transition s t a hstep) (coordinated hreach) hs⟩
    intro _ heq
    obtain rfl := heq
    exact ⟨fun _ _ _ => ⟨rfl, rfl⟩, nofun, fun _ _ => Nat.zero_le 1, fun _ => nofun⟩
  exact hinv.holds h

/-- The first call to close the queue finds everything closed and queued exactly when it
overlaps with nobody. -/
theorem queue_closed_settled_iff (s t : State) (c : Nat) (hs : machine.Reachable s)
    (hopen : s.queueClosed = false) (hstep : s.step (.closeQueue c) = some t) :
    Settled t ↔ Alone s c := by
  have hcoordinated := coordinated hs
  have hledgered := ledgered hs
  cases step_transition s t _ hstep with
  | closeQueue _ call =>
    constructor
    · intro ht
      refine ⟨fun d other _ _ p _ pool hpool halive => ht.closed p pool hpool halive, ?_⟩
      intro p pool hpool halive closer hcloser
      by_contra hne
      obtain ⟨name, hname⟩ := List.exists_mem_of_ne_nil _ hne
      have htaken : 0 < pool.state.taken.count name :=
        List.count_pos_iff.mpr (List.mem_flatMap.mpr ⟨closer, hcloser, hname⟩)
      have hbalance := hledgered.balance hopen p pool hpool name
      have hidled : 0 < s.idled.count (p, name) := by omega
      have haccepted := List.count_pos_iff.mpr
        (ht.accepted p pool hpool halive name (List.count_pos_iff.mp hidled))
      have haccepted : 0 < s.accepted.count (p, name) := haccepted
      have hone := hledgered.once p name
      omega
    · intro halone
      have hregistry := hcoordinated.registry c _ call rfl
      refine ⟨hcoordinated.admission c _ call nofun, fun p pool hpool halive => ?_,
        fun p pool hpool halive name hidled => ?_⟩
      · by_contra hopened
        rw [Bool.not_eq_false] at hopened
        rcases hcoordinated.listed p pool hpool hopened with hlisted | hlisted
        · rw [hregistry] at hlisted
          cases hlisted
        · obtain ⟨other, hother, hin⟩ := List.mem_flatMap.mp hlisted
          obtain ⟨d, hd⟩ := List.mem_iff_getElem?.mp hother
          have hdc : d ≠ c := fun hdc => by
            rw [hdc, call, Option.some.injEq] at hd
            rw [← hd] at hin
            cases hin
          rw [halone.calls d other hdc hd p hin pool hpool halive] at hopened
          cases hopened
      · have htaken : pool.state.taken.count name = 0 := by
          rw [List.count_eq_zero, Prewarm.State.taken, List.mem_flatMap]
          intro hparts
          obtain ⟨closer, hcloser, hname⟩ := hparts
          rw [halone.closers p pool hpool halive closer hcloser] at hname
          cases hname
        have hbalance := hledgered.balance hopen p pool hpool name
        have hidled : 0 < s.idled.count (p, name) := List.count_pos_iff.mpr hidled
        exact List.count_pos_iff.mp (show 0 < s.accepted.count (p, name) by omega)

/-- A pool of one database, created and idle. -/
def onePool : List Action :=
  [.registerPrewarmPool 1, .pool 0 .beginCreation, .pool 0 (.gate 0 true "a".toList),
    .pool 0 (.creationReturns 0 (some true)), .pool 0 (.publish 0), .pool 0 (.addToken 0),
    .pool 0 .beginCreation]

/-- One call that closes the pool on its own. -/
def oneShutdown : List Action :=
  onePool ++ [.shutdown, .closeAdmission 0, .takePools 0, .upgrade 0, .beginPoolClose 0,
    .pool 0 (.closeSemaphores 0), .pool 0 (.queueTaken 0 true), .pool 0 (.finishClose 0), .poolClosed 0]

theorem queue_closed_settled_iff_one : ∃ s t, machine.run .initial oneShutdown = some s ∧
    s.step (.closeQueue 0) = some t ∧ t.accepted = [(0, "a".toList)] ∧ (Settled t ↔ Alone s 0) := by
  refine ⟨_, _, rfl, rfl, rfl, ?_⟩
  exact queue_closed_settled_iff _ _ 0 (Machine.reachable_of_run oneShutdown rfl rfl) rfl rfl

/-- The second of two calls finds the registry empty while the first has the pool on its
list. -/
def twoShutdowns : List Action :=
  onePool ++ [.shutdown, .shutdown, .closeAdmission 0, .takePools 0, .closeAdmission 1, .takePools 1]

theorem queue_closed_with_open_pool : ¬ ∀ (s t : State) (c : Nat), machine.Reachable s →
    s.queueClosed = false → s.step (.closeQueue c) = some t → Settled t := by
  intro h
  have hsettled := h _ _ 1 (Machine.reachable_of_run twoShutdowns rfl rfl) rfl rfl
  have hclosed := hsettled.closed 0 _ rfl rfl
  cases hclosed

end Steps

end PostgresTestHarness.Shutdown
