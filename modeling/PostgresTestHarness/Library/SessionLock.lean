import Mathlib.Data.List.Basic
import Mathlib.Data.List.Count
import Mathlib.Data.Prod.Lex
import Mathlib.Logic.Relation

/-! Locks that belong to sessions.

A table has the locks that sessions hold, each as often as it was taken, and the
requests that wait, in order of arrival. Requests on one key are granted in that order:
only the first may be granted, and only when no other session holds the key in a mode
that conflicts. A session that ends takes its locks and its request with it.

`heldBy` and `requestedBy` are one session's share of a table. What an operation does is
said by them, so that nobody has to look into a table again; `Compatible` is what the
modes promise, and `acyclic` bounds who can wait for whom. -/
namespace SessionLock

inductive Mode where
  | shared
  | exclusive
  deriving DecidableEq, Repr

/-- Only shared holders stand side by side. -/
def Mode.conflicts : Mode → Mode → Bool
  | .shared, .shared => false
  | _, _ => true

@[simp] theorem Mode.exclusive_conflicts (m : Mode) : Mode.exclusive.conflicts m = true := by
  cases m <;> rfl

@[simp] theorem Mode.conflicts_exclusive (m : Mode) : m.conflicts .exclusive = true := by
  cases m <;> rfl

/-- A lock that a session holds or asks for. -/
structure Lock (σ κ : Type*) where
  session : σ
  key : κ
  mode : Mode
  deriving DecidableEq, Repr

structure Table (σ κ : Type*) where
  held : List (Lock σ κ)
  queue : List (Lock σ κ)
  deriving DecidableEq, Repr

namespace Table
variable {σ κ : Type*}

def empty : Table σ κ := ⟨[], []⟩

/-- No two sessions hold one key in modes that conflict. -/
def Compatible (t : Table σ κ) : Prop :=
  ∀ a ∈ t.held, ∀ b ∈ t.held, a.key = b.key → a.session ≠ b.session → a.mode.conflicts b.mode = false

/-- One session waits for another: that one holds the key in a mode that conflicts, or
asked for it earlier. -/
inductive WaitsFor (t : Table σ κ) : σ → σ → Prop where
  | holder {r h : Lock σ κ} : r ∈ t.queue → h ∈ t.held → h.key = r.key → h.session ≠ r.session →
      h.mode.conflicts r.mode = true → WaitsFor t r.session h.session
  | ahead {p q : Nat} {r earlier : Lock σ κ} : t.queue[p]? = some earlier → t.queue[q]? = some r →
      p < q → earlier.key = r.key → WaitsFor t r.session earlier.session

theorem compatible_empty : (empty : Table σ κ).Compatible := nofun

/-- An exclusive lock is the only one on its key. -/
theorem Compatible.alone {t : Table σ κ} (ht : t.Compatible) {a b : Lock σ κ} (ha : a ∈ t.held)
    (hb : b ∈ t.held) (hkey : b.key = a.key) (hmode : a.mode = .exclusive) : b.session = a.session := by
  by_contra hne
  have := ht b hb a ha hkey hne
  rw [hmode, Mode.conflicts_exclusive] at this
  cases this

variable [DecidableEq σ]

def heldBy (t : Table σ κ) (s : σ) : List (Lock σ κ) := t.held.filter (·.session == s)

def requestedBy (t : Table σ κ) (s : σ) : List (Lock σ κ) := t.queue.filter (·.session == s)

/-- The end of a session. -/
def endSession (t : Table σ κ) (s : σ) : Table σ κ where
  held := t.held.filter (·.session != s)
  queue := t.queue.filter (·.session != s)

/-- A lock request that has to wait its turn. -/
def request (t : Table σ κ) (e : Lock σ κ) : Table σ κ := { t with queue := t.queue ++ [e] }

variable [DecidableEq κ]

/-- No other session holds the key in a mode that conflicts. -/
def free (t : Table σ κ) (e : Lock σ κ) : Bool :=
  t.held.all fun h => h.key != e.key || h.session == e.session || !h.mode.conflicts e.mode

/-- Whether the request is the next on its key, and nothing stands against it. -/
def grantable (t : Table σ κ) (e : Lock σ κ) : Bool :=
  (t.queue.find? (·.key == e.key) == some e) && t.free e

def grant (t : Table σ κ) (e : Lock σ κ) : Table σ κ :=
  ⟨e :: t.held, t.queue.erase e⟩

/-- A request that is given up. -/
def withdraw (t : Table σ κ) (e : Lock σ κ) : Table σ κ := { t with queue := t.queue.erase e }

/-- Whether a lock can be had without waiting: it passes no request that it conflicts with. -/
def available (t : Table σ κ) (e : Lock σ κ) : Bool :=
  t.free e && t.queue.all fun r => r.key != e.key || !r.mode.conflicts e.mode

/-- A lock that was had without waiting. -/
def take (t : Table σ κ) (e : Lock σ κ) : Table σ κ := { t with held := e :: t.held }

/-- Gives one lock back. -/
def release (t : Table σ κ) (e : Lock σ κ) : Table σ κ := { t with held := t.held.erase e }

section Shares
variable (t : Table σ κ) (e : Lock σ κ) (s : σ)

omit [DecidableEq κ] in
theorem mem_heldBy {t : Table σ κ} {e : Lock σ κ} {s : σ} :
    e ∈ t.heldBy s ↔ e ∈ t.held ∧ e.session = s := by
  rw [heldBy, List.mem_filter, beq_iff_eq]

omit [DecidableEq κ] in
theorem mem_requestedBy {t : Table σ κ} {e : Lock σ κ} {s : σ} :
    e ∈ t.requestedBy s ↔ e ∈ t.queue ∧ e.session = s := by
  rw [requestedBy, List.mem_filter, beq_iff_eq]

omit [DecidableEq κ] in
@[simp] theorem heldBy_request : (t.request e).heldBy s = t.heldBy s := rfl

@[simp] theorem heldBy_withdraw : (t.withdraw e).heldBy s = t.heldBy s := rfl

omit [DecidableEq κ] in
theorem heldBy_take : (t.take e).heldBy s = if e.session = s then e :: t.heldBy s else t.heldBy s := by
  rw [heldBy, heldBy, take, List.filter_cons]
  simp only [beq_iff_eq]

theorem heldBy_grant : (t.grant e).heldBy s = if e.session = s then e :: t.heldBy s else t.heldBy s :=
  heldBy_take t e s

theorem heldBy_release : (t.release e).heldBy s = (t.heldBy s).erase e := List.erase_filter.symm

/-- Another session's lock is not given back. -/
theorem heldBy_release_of_ne {t : Table σ κ} {e : Lock σ κ} {s : σ} (h : e.session ≠ s) :
    (t.release e).heldBy s = t.heldBy s := by
  rw [heldBy_release]
  exact List.erase_of_not_mem fun he => h (mem_heldBy.mp he).2

omit [DecidableEq κ] in
theorem heldBy_endSession (ended : σ) :
    (t.endSession ended).heldBy s = if ended = s then [] else t.heldBy s := by
  rw [heldBy, heldBy, endSession, List.filter_filter]
  split
  · rename_i heq
    refine List.filter_eq_nil_iff.mpr fun a _ => ?_
    simp [heq]
  · rename_i hne
    refine List.filter_congr fun a _ => ?_
    by_cases ha : a.session = s
    · simp [ha, Ne.symm hne]
    · simp [ha]

omit [DecidableEq κ] in
theorem requestedBy_request :
    (t.request e).requestedBy s = if e.session = s then t.requestedBy s ++ [e] else t.requestedBy s := by
  rw [requestedBy, requestedBy, request, List.filter_append]
  rw [List.filter_cons, List.filter_nil]
  by_cases h : e.session = s
  · rw [if_pos (beq_iff_eq.mpr h), if_pos h]
  · rw [if_neg (mt beq_iff_eq.mp h), if_neg h, List.append_nil]

theorem requestedBy_withdraw : (t.withdraw e).requestedBy s = (t.requestedBy s).erase e :=
  List.erase_filter.symm

theorem requestedBy_withdraw_of_ne {t : Table σ κ} {e : Lock σ κ} {s : σ} (h : e.session ≠ s) :
    (t.withdraw e).requestedBy s = t.requestedBy s := by
  rw [requestedBy_withdraw]
  exact List.erase_of_not_mem fun he => h (mem_requestedBy.mp he).2

theorem requestedBy_grant : (t.grant e).requestedBy s = (t.requestedBy s).erase e :=
  requestedBy_withdraw t e s

theorem requestedBy_grant_of_ne {t : Table σ κ} {e : Lock σ κ} {s : σ} (h : e.session ≠ s) :
    (t.grant e).requestedBy s = t.requestedBy s := requestedBy_withdraw_of_ne h

omit [DecidableEq κ] in
@[simp] theorem requestedBy_take : (t.take e).requestedBy s = t.requestedBy s := rfl

@[simp] theorem requestedBy_release : (t.release e).requestedBy s = t.requestedBy s := rfl

omit [DecidableEq κ] in
theorem requestedBy_endSession (ended : σ) :
    (t.endSession ended).requestedBy s = if ended = s then [] else t.requestedBy s :=
  heldBy_endSession ⟨t.queue, []⟩ s ended

end Shares

section Compatibility
variable {t : Table σ κ} {e : Lock σ κ}

theorem free_iff : t.free e = true ↔ ∀ h ∈ t.held, h.key = e.key → h.session ≠ e.session →
    h.mode.conflicts e.mode = false := by
  rw [free, List.all_eq_true]
  refine forall₂_congr fun h _ => ?_
  simp only [Bool.or_eq_true, bne_iff_ne, beq_iff_eq, Bool.not_eq_true']
  tauto

theorem conflicts_comm (a b : Mode) : a.conflicts b = b.conflicts a := by
  cases a <;> cases b <;> rfl

theorem Compatible.take (ht : t.Compatible) (hfree : t.free e = true) : (t.take e).Compatible := by
  rw [free_iff] at hfree
  intro a ha b hb hkey hne
  rcases List.mem_cons.mp ha with hae | ha <;> rcases List.mem_cons.mp hb with hbe | hb
  · exact absurd (hae ▸ hbe ▸ rfl) hne
  · rw [conflicts_comm, hae]
    exact hfree b hb (hae ▸ hkey.symm) fun h => hne (hae ▸ h.symm)
  · rw [hbe]
    exact hfree a ha (hbe ▸ hkey) fun h => hne (hbe ▸ h)
  · exact ht a ha b hb hkey hne

theorem Compatible.grant (ht : t.Compatible) (hgrant : t.grantable e = true) :
    (t.grant e).Compatible :=
  ht.take (Bool.and_eq_true_iff.mp hgrant).2

omit [DecidableEq σ] [DecidableEq κ] in
/-- Locks that are only given back stay compatible. -/
theorem Compatible.of_subset {u : Table σ κ} (ht : t.Compatible) (h : u.held ⊆ t.held) :
    u.Compatible :=
  fun a ha b hb hkey hne => ht a (h ha) b (h hb) hkey hne

theorem Compatible.release (ht : t.Compatible) : (t.release e).Compatible :=
  ht.of_subset List.erase_subset

omit [DecidableEq κ] in
theorem Compatible.endSession (ht : t.Compatible) (s : σ) : (t.endSession s).Compatible :=
  fun a ha b hb => ht a (List.mem_of_mem_filter ha) b (List.mem_of_mem_filter hb)

end Compatibility

section Waiting
variable {t : Table σ κ}
omit [DecidableEq κ]

theorem queue_sessions_nodup (single : ∀ s, (t.requestedBy s).length ≤ 1) :
    (t.queue.map (·.session)).Nodup := by
  rw [List.nodup_iff_count]
  intro s
  rw [List.count, List.countP_map, List.countP_eq_length_filter]
  exact single s

/-- Sessions with one request each do not wait in a circle, if the level of a session that
holds a key is below that of one that waits for it, and no request stands behind one of a
higher level. -/
theorem acyclic (level : σ → Nat) (single : ∀ s, (t.requestedBy s).length ≤ 1)
    (holder : ∀ r ∈ t.queue, ∀ h ∈ t.held, h.key = r.key → h.session ≠ r.session →
      level h.session < level r.session)
    (ahead : ∀ r ∈ t.queue, ∀ earlier ∈ t.queue, earlier.key = r.key →
      level earlier.session ≤ level r.session) (s : σ) :
    ¬ Relation.TransGen t.WaitsFor s s := by
  have hnodup := queue_sessions_nodup single
  let place : σ → Nat := fun a => (t.queue.map (·.session)).idxOf a
  have hplace : ∀ {p : Nat} {r : Lock σ κ}, t.queue[p]? = some r → place r.session = p := by
    intro p r h
    obtain ⟨hp, rfl⟩ := List.getElem?_eq_some_iff.mp h
    have := hnodup.idxOf_getElem p (by rw [List.length_map]; exact hp)
    rwa [List.getElem_map] at this
  -- a step goes to a lower level, or further to the front on the same one
  have hstep : ∀ {a b : σ}, t.WaitsFor a b → toLex (level b, place b) < toLex (level a, place a) := by
    intro a b hab
    rw [Prod.Lex.toLex_lt_toLex]
    cases hab with
    | holder hr hh hkey hne _ => exact Or.inl (holder _ hr _ hh hkey hne)
    | ahead hp hq hlt hkey =>
      have hle := ahead _ (List.mem_of_getElem? hq) _ (List.mem_of_getElem? hp) hkey
      refine (Nat.lt_or_eq_of_le hle).imp id fun heq => ⟨heq, ?_⟩
      show place _ < place _
      rw [hplace hp, hplace hq]
      exact hlt
  have hrun : ∀ {a b : σ}, Relation.TransGen t.WaitsFor a b →
      toLex (level b, place b) < toLex (level a, place a) := by
    intro a b hab
    induction hab with
    | single h => exact hstep h
    | tail _ h ih => exact (hstep h).trans ih
  exact fun h => lt_irrefl _ (hrun h)

end Waiting

/-- A request that finds nobody on its key is next. -/
theorem grantable_request {t : Table σ κ} {e : Lock σ κ} (hqueue : ∀ r ∈ t.queue, r.key ≠ e.key)
    (hfree : t.free e = true) : (t.request e).grantable e = true := by
  have hnone : t.queue.find? (·.key == e.key) = none := by
    rw [List.find?_eq_none]
    exact fun r hr => mt beq_iff_eq.mp (hqueue r hr)
  have hfirst : [e].find? (·.key == e.key) = some e := List.find?_cons_of_pos (beq_self_eq_true e.key)
  rw [grantable, request, List.find?_append, hnone, Option.none_or, hfirst, beq_self_eq_true, Bool.true_and]
  exact hfree

/-- A request that cannot be granted waits for somebody. -/
theorem grantable_or_waits {t : Table σ κ} {r : Lock σ κ} (hr : r ∈ t.queue) :
    t.grantable r = true ∨ ∃ s, t.WaitsFor r.session s := by
  by_cases hfree : t.free r = true
  · cases hfirst : t.queue.find? (·.key == r.key) with
    | none => exact absurd (beq_self_eq_true r.key) (List.find?_eq_none.mp hfirst r hr)
    | some earlier =>
      by_cases heq : earlier = r
      · left
        rw [grantable, hfirst, heq, hfree, beq_self_eq_true, Bool.and_true]
      · right
        obtain ⟨hkey, p, hp, hget, hbefore⟩ := List.find?_eq_some_iff_getElem.mp hfirst
        obtain ⟨q, hq, hrq⟩ := List.getElem_of_mem hr
        refine ⟨earlier.session, .ahead (List.getElem?_eq_some_iff.mpr ⟨hp, hget⟩)
          (List.getElem?_eq_some_iff.mpr ⟨hq, hrq⟩) ?_ (beq_iff_eq.mp hkey)⟩
        -- the first on the key is not behind
        rcases Nat.lt_trichotomy p q with hlt | hpq | hlt
        · exact hlt
        · subst hpq
          exact absurd (hget.symm.trans hrq) heq
        · have := hbefore q hlt
          rw [hrq, beq_self_eq_true] at this
          cases this
  · right
    rw [free_iff] at hfree
    simp only [not_forall, Bool.not_eq_false] at hfree
    obtain ⟨h, hheld, hkey, hsession, hconflict⟩ := hfree
    exact ⟨h.session, .holder hr hheld hkey hsession hconflict⟩

end Table
end SessionLock
