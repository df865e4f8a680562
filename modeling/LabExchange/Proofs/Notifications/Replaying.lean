import LabExchange.Notification
import Mathlib.Data.List.Induction
import Mathlib.Data.List.Nodup

/-!
# Notifications and their history

What a manager shows is told by the history of what was done with it: a notification is shown from
when it is added until one takes its place, it is dismissed, or expired ones are cleared after its
time. The counts and the status line are those of what is shown. Nothing is assumed of the moments
in the history.
-/
namespace LabExchange

theorem Notification.isExpired_iff {n : Notification} {now : Int} :
    n.isExpired now = true ↔ ∃ expiry, n.expiresAt = some expiry ∧ expiry < now := by
  simp [isExpired, Option.any_eq_true]

namespace NotificationManager

/-! ## Operations -/

/-- What can be done with a manager. The id and the moment of a report come from outside. -/
inductive Operation : Type 1 where
  | add (n : Notification)
  | report {α : Type} (result : Except HubError α) (source id : String) (now : Int)
  | dismiss (id : String)
  | clearExpired (now : Int)
  | select (id : String)

def carryOut (m : NotificationManager) : Operation → NotificationManager
  | .add n => m.add n
  | .report result source id now => (m.report result source id now).2.1
  | .dismiss id => m.dismiss id
  | .clearExpired now => m.clearExpired now
  | .select id => m.select id

/-- Carries out operations, one after the other. -/
def after (m : NotificationManager) (history : List Operation) : NotificationManager :=
  history.foldl carryOut m

namespace Operation

/-- The notification that is added, if one is. -/
def added? : Operation → Option Notification
  | add n => some n
  | report (.error e) source id now => some (.ofHubError e id source now)
  | _ => none

/-- Whether a notification is added under an id. -/
def Uses (o : Operation) (id : String) : Prop := ∃ n, o.added? = some n ∧ n.id = id

/-- Whether a notification is taken away: it is dismissed, or expired ones are cleared strictly
after its time. -/
def Takes : Operation → Notification → Prop
  | dismiss id, n => id = n.id
  | clearExpired now, n => ∃ expiry, n.expiresAt = some expiry ∧ expiry < now
  | _, _ => False

end Operation

/-- At some point of a history an operation has met a condition, which may depend on what was before
it, and all operations since then have met another one. -/
def Since (begins : List Operation → Operation → Prop) (lasts : Operation → Prop)
    (history : List Operation) : Prop :=
  ∃ earlier o later, history = earlier ++ o :: later ∧ begins earlier o ∧ ∀ p ∈ later, lasts p

/-- A notification has been added, and since then none has been added in its place and it has not
been taken away. -/
def Stands (history : List Operation) (n : Notification) : Prop :=
  ∃ earlier o later, history = earlier ++ o :: later ∧ o.added? = some n ∧
    ∀ p ∈ later, ¬p.Uses n.id ∧ ¬p.Takes n

variable {m : NotificationManager} {history : List Operation} {o : Operation} {n : Notification}

@[simp] theorem after_append (m : NotificationManager) (history later : List Operation) :
    m.after (history ++ later) = (m.after history).after later := List.foldl_append

@[simp] theorem after_concat (m : NotificationManager) (history : List Operation) (o : Operation) :
    m.after (history ++ [o]) = (m.after history).carryOut o := after_append m history [o]

/-! ## One operation -/

theorem carryOut_of_added? (h : o.added? = some n) : m.carryOut o = m.add n := by
  cases o with
  | add n' => exact congrArg m.add (Option.some.inj h)
  | report result source id now =>
    cases result with
    | error e => exact congrArg m.add (Option.some.inj h)
    | ok a => cases h
  | dismiss | clearExpired | select => cases h

@[simp] theorem mem_add {new : Notification} :
    n ∈ (m.add new).notifications ↔ new = n ∨ n ∈ m.notifications ∧ new.id ≠ n.id := by
  simp only [add, List.mem_append, List.mem_filter, List.mem_singleton, bne_iff_ne]
  rw [or_comm, eq_comm, ne_comm]

/-- What is held after an operation has been added by it, or it was held before, not in the place
of what is added, and is not taken away. -/
theorem mem_carryOut : n ∈ (m.carryOut o).notifications ↔
    o.added? = some n ∨ n ∈ m.notifications ∧ ¬o.Uses n.id ∧ ¬o.Takes n := by
  cases hadded : o.added? with
  | some new =>
    have htakes : ¬o.Takes n := by
      cases o with
      | add | report => exact id
      | dismiss | clearExpired | select => cases hadded
    rw [carryOut_of_added? hadded, mem_add]
    simp [Operation.Uses, hadded, htakes]
  | none =>
    have huses : ¬o.Uses n.id := by simp [Operation.Uses, hadded]
    simp only [reduceCtorEq, false_or, huses, not_false_iff, true_and]
    cases o with
    | add new => cases hadded
    | report result source id now =>
      cases result with
      | error e => cases hadded
      | ok a => simp [carryOut, report, Operation.Takes]
    | dismiss id => simp [carryOut, dismiss, Operation.Takes, ne_comm]
    | clearExpired now =>
      simp only [carryOut, clearExpired, List.mem_filter, Bool.not_eq_true', Operation.Takes,
        ← Notification.isExpired_iff, Bool.not_eq_true]
    | select id => simp [carryOut, select, Operation.Takes]

theorem ids_nodup_add (h : (m.notifications.map (·.id)).Nodup) (new : Notification) :
    ((m.add new).notifications.map (·.id)).Nodup := by
  rw [add, List.map_append, List.nodup_append]
  refine ⟨h.sublist (List.filter_sublist.map _), List.nodup_singleton _, ?_⟩
  intro id hold other hnew
  obtain ⟨n, hn, rfl⟩ := List.mem_map.mp hold
  obtain rfl := List.mem_singleton.mp hnew
  simpa using (List.mem_filter.mp hn).2

theorem ids_nodup_carryOut (h : (m.notifications.map (·.id)).Nodup) (o : Operation) :
    ((m.carryOut o).notifications.map (·.id)).Nodup := by
  cases o with
  | add new => exact ids_nodup_add h new
  | report result source id now =>
    cases result with
    | error e => exact ids_nodup_add h _
    | ok a => exact h
  | dismiss id => exact h.sublist (List.filter_sublist.map _)
  | clearExpired now => exact h.sublist (List.filter_sublist.map _)
  | select id => exact h

/-! ## A whole history -/

theorem ids_nodup_after (history : List Operation) :
    ((empty.after history).notifications.map (·.id)).Nodup := by
  induction history using List.reverseRecOn with
  | nil => exact List.nodup_nil
  | append_singleton history o ih =>
    rw [after_concat]
    exact ids_nodup_carryOut ih o

theorem not_since_nil {begins : List Operation → Operation → Prop} {lasts : Operation → Prop} :
    ¬Since begins lasts [] := by
  rintro ⟨earlier, o, later, hhistory, -⟩
  simp at hhistory

/-- The last operation of a history begins it, or carries it on. -/
theorem since_concat {begins : List Operation → Operation → Prop} {lasts : Operation → Prop} :
    Since begins lasts (history ++ [o]) ↔
      begins history o ∨ Since begins lasts history ∧ lasts o := by
  constructor
  · rintro ⟨earlier, p, later, hhistory, hbegins, hlater⟩
    rcases List.eq_nil_or_concat' later with rfl | ⟨between, last, rfl⟩
    · obtain ⟨rfl, heq⟩ := List.append_inj' hhistory rfl
      obtain rfl := List.singleton_inj.mp heq
      exact .inl hbegins
    · rw [← List.cons_append, ← List.append_assoc] at hhistory
      obtain ⟨rfl, heq⟩ := List.append_inj' hhistory rfl
      obtain rfl := List.singleton_inj.mp heq
      obtain ⟨hbetween, hlast⟩ := List.forall_mem_append.mp hlater
      exact .inr ⟨⟨earlier, p, between, rfl, hbegins, hbetween⟩,
        hlast o (List.mem_singleton_self o)⟩
  · rintro (hbegins | ⟨⟨earlier, p, later, rfl, hbegins, hlater⟩, hlast⟩)
    · exact ⟨history, o, [], rfl, hbegins, List.forall_mem_nil _⟩
    · refine ⟨earlier, p, later ++ [o], by simp, hbegins, List.forall_mem_append.mpr ⟨hlater, ?_⟩⟩
      exact List.forall_mem_singleton.mpr hlast

theorem not_stands_nil : ¬Stands [] n := not_since_nil

theorem stands_concat : Stands (history ++ [o]) n ↔
    o.added? = some n ∨ Stands history n ∧ ¬o.Uses n.id ∧ ¬o.Takes n := since_concat

/-- What is held is what stands in the history. -/
theorem mem_after : n ∈ (empty.after history).notifications ↔ Stands history n := by
  induction history using List.reverseRecOn with
  | nil => exact iff_of_false List.not_mem_nil not_stands_nil
  | append_singleton history o ih => rw [after_concat, mem_carryOut, ih, stands_concat]

/-! ## What is shown -/

@[simp] theorem mem_active : n ∈ m.active ↔ n ∈ m.notifications := List.mem_mergeSort

theorem active_perm (m : NotificationManager) : m.active.Perm m.notifications :=
  List.mergeSort_perm _ _

theorem pairwise_active (m : NotificationManager) :
    m.active.Pairwise fun a b => b.createdAt ≤ a.createdAt := by
  have htrans : ∀ a b c : Notification, decide (b.createdAt ≤ a.createdAt) →
      decide (c.createdAt ≤ b.createdAt) → decide (c.createdAt ≤ a.createdAt) := by
    simp only [decide_eq_true_eq]
    exact fun a b c hab hbc => Int.le_trans hbc hab
  have htotal : ∀ a b : Notification,
      decide (b.createdAt ≤ a.createdAt) || decide (a.createdAt ≤ b.createdAt) := by
    simpa using fun a b : Notification => Int.le_total b.createdAt a.createdAt
  exact (List.pairwise_mergeSort htrans htotal m.notifications).imp of_decide_eq_true

theorem countOf_eq (m : NotificationManager) (kind : NotificationKind) :
    m.countOf kind = m.active.countP (·.kind == kind) := (m.active_perm.countP_eq _).symm

/-- A number of things, in words. -/
def counted (count : Nat) (noun : String) : String :=
  if count = 1 then "1 " ++ noun else toString count ++ " " ++ noun ++ "s"

/-- The status line about so many errors and warnings. -/
def statusLine : Nat → Nat → Option String
  | 0, 0 => none
  | 0, warnings => some (counted warnings "warning")
  | errors, 0 => some (counted errors "error")
  | errors, warnings => some (counted errors "error" ++ ", " ++ counted warnings "warning")

theorem countText?_eq (count : Nat) (noun : String) :
    countText? count noun = if count = 0 then none else some (counted count noun) := by
  unfold countText? counted
  split_ifs <;> rfl

theorem status?_eq (m : NotificationManager) :
    m.status? = statusLine (m.countOf .error) (m.countOf .warning) := by
  rw [status?, countText?_eq, countText?_eq]
  cases m.countOf .error <;> cases m.countOf .warning <;> simp [statusLine]

example : statusLine 2 1 = some "2 errors, 1 warning" := by decide

/-! ## Reports -/

/-- No notification is added under the id. -/
def IsUnused (id : String) (history : List Operation) : Prop := ∀ o ∈ history, ¬o.Uses id

theorem Stands.exists_uses (h : Stands history n) : ∃ o ∈ history, o.Uses n.id := by
  obtain ⟨earlier, o, later, rfl, hadded, -⟩ := h
  exact ⟨o, by simp, n, hadded, rfl⟩

/-- A notification under an unused id comes to all others. -/
theorem active_add_perm (hunused : IsUnused n.id history) :
    ((empty.after history).add n).active.Perm (n :: (empty.after history).active) := by
  have hkept : (empty.after history).notifications.filter (·.id != n.id) =
      (empty.after history).notifications := by
    refine List.filter_eq_self.mpr fun other hother => bne_iff_ne.mpr fun hsame => ?_
    obtain ⟨o, ho, huses⟩ := (mem_after.mp hother).exists_uses
    exact hunused o ho (hsame ▸ huses)
  refine (active_perm _).trans (.trans ?_ ((active_perm _).symm.cons n))
  rw [add, hkept]
  exact List.perm_append_singleton n _

/-- A notification stays until it is taken away, if none takes its place. -/
theorem mem_after_of_mem {later : List Operation} (h : n ∈ m.notifications)
    (hlater : IsUnused n.id later) :
    n ∈ (m.after later).notifications ↔ ∀ o ∈ later, ¬o.Takes n := by
  induction later using List.reverseRecOn with
  | nil => exact iff_of_true h (List.forall_mem_nil _)
  | append_singleton later o ih =>
    obtain ⟨hlater, hlast⟩ := List.forall_mem_append.mp hlater
    have huses : ¬o.Uses n.id := hlast o (List.mem_singleton_self o)
    have hadded : o.added? ≠ some n := fun hadded => huses ⟨n, hadded, rfl⟩
    rw [after_concat, mem_carryOut, ih hlater, List.forall_mem_append, List.forall_mem_singleton]
    simp [hadded, huses]

/-- Without a time of expiry only a dismissal takes a notification away. -/
theorem Operation.takes_iff (h : n.expiresAt = none) : o.Takes n ↔ o = .dismiss n.id := by
  cases o <;> simp [Takes, h]

/-- A manager has noted a failure: the error notification has come to what it shows, and it is
shown until it is dismissed, whatever is done under other ids. -/
structure Notes (m m' : NotificationManager) (error : Notification) : Prop where
  kind : error.kind = .error
  shown : m'.active.Perm (error :: m.active)
  stays : ∀ later, IsUnused error.id later →
    (error ∈ (m'.after later).active ↔ .dismiss error.id ∉ later)

theorem notes_add (hkind : n.kind = .error) (hexpiry : n.expiresAt = none)
    (hunused : IsUnused n.id history) :
    (empty.after history).Notes ((empty.after history).add n) n where
  kind := hkind
  shown := active_add_perm hunused
  stays later hlater := by
    rw [mem_active, mem_after_of_mem (mem_add.mpr (.inl rfl)) hlater]
    simp only [Operation.takes_iff hexpiry]
    exact ⟨fun h hmem => h _ hmem rfl, fun h o ho heq => h (heq ▸ ho)⟩

/-! ## The manager and its history -/

/-- A manager is what its history makes of it: every id is shown once, newest first, by the
notification that stands there; the counts and the status line are those of what is shown; a report
of a success changes nothing, and that of a failure under an unused id is noted. -/
structure IsReplay (history : List Operation) (m : NotificationManager) : Prop where
  ids_nodup : (m.active.map (·.id)).Nodup
  newestFirst : m.active.Pairwise fun a b => b.createdAt ≤ a.createdAt
  shows : ∀ n, n ∈ m.active ↔ Stands history n
  counts : ∀ kind, m.countOf kind = m.active.countP (·.kind == kind)
  hasErrors : m.hasErrors = m.active.any (·.kind == .error)
  hasWarnings : m.hasWarnings = m.active.any (·.kind == .warning)
  status : m.status? = statusLine (m.active.countP (·.kind == .error))
    (m.active.countP (·.kind == .warning))
  passes : ∀ {α : Type} (a : α) (source id : String) (now : Int),
    m.report (.ok a) source id now = (some a, m, [])
  notes : ∀ {α : Type} (e : HubError) (source id : String) (now : Int), IsUnused id history →
    ∃ m' log, m.report (.error e : Except HubError α) source id now = (none, m', log) ∧
      m.Notes m' (.ofHubError e id source now)

theorem any_kind_eq (m : NotificationManager) (kind : NotificationKind) :
    decide (0 < m.countOf kind) = m.active.any (·.kind == kind) := by
  rw [countOf_eq, Bool.eq_iff_iff, decide_eq_true_iff, List.countP_pos_iff, List.any_eq_true]

/-- A new manager that has been through any history is the replay of that history. -/
theorem isReplay_after (history : List Operation) :
    IsReplay history (empty.after history) where
  ids_nodup := ((active_perm _).map _).nodup_iff.mpr (ids_nodup_after history)
  newestFirst := pairwise_active _
  shows n := mem_active.trans mem_after
  counts := countOf_eq _
  hasErrors := any_kind_eq _ .error
  hasWarnings := any_kind_eq _ .warning
  status := by rw [status?_eq, countOf_eq, countOf_eq]
  passes a source id now := rfl
  notes e source id now hunused := ⟨_, _, rfl, notes_add rfl rfl hunused⟩

end NotificationManager
end LabExchange
