import LabExchange.Proofs.Notifications.Replaying

/-!
# The notification whose details are shown

Details are shown of one notification, from when they are asked for until those of another one are
or the notification is dismissed. They outlast it in one case: it expires and is cleared away.
Which notification it is, and whether it is still held, is told by the history alone.
-/
namespace LabExchange.NotificationManager

variable {m : NotificationManager} {history : List Operation} {o : Operation} {id : String}

/-! ## What is chosen -/

/-- Details are asked for only of a notification that is held at that moment. -/
def SelectsHeld (history : List Operation) : Prop :=
  ∀ earlier id later, history = earlier ++ .select id :: later →
    ∃ n, (empty.after earlier).get? id = some n

/-- An operation leaves it open whose details are shown, if they are those of an id: it neither
dismisses the id nor asks for details. -/
def Operation.KeepsChoice (id : String) (o : Operation) : Prop :=
  o ≠ .dismiss id ∧ ∀ other, o ≠ .select other

/-- The details of an id have been asked for, and the choice has been kept since then. -/
def IsChosen (history : List Operation) (id : String) : Prop :=
  Since (fun _ o => o = .select id) (Operation.KeepsChoice id) history

/-- Expired notifications have been cleared away when the details of one of them were shown. Since
then its id has not been used again, and the choice has been kept. -/
def ExpiredWhileChosen (history : List Operation) (id : String) : Prop :=
  Since (fun earlier o => ∃ now n, o = .clearExpired now ∧ IsChosen earlier id ∧
      Stands earlier n ∧ n.id = id ∧ n.isExpired now = true)
    (fun o => ¬o.Uses id ∧ o.KeepsChoice id) history

/-- Details are shown of a notification that is not held. -/
def ShowsGone (m : NotificationManager) (id : String) : Prop :=
  m.selected = some id ∧ m.get? id = none

/-! ## One operation -/

theorem get?_eq_none : m.get? id = none ↔ ∀ n ∈ m.notifications, n.id ≠ id := by
  simp [get?]

theorem selected_carryOut : (m.carryOut o).selected = some id ↔
    o = .select id ∨ m.selected = some id ∧ o.KeepsChoice id := by
  cases o with
  | add n => simp [carryOut, add, Operation.KeepsChoice]
  | report result source id now =>
    cases result <;> simp [carryOut, report, add, Operation.KeepsChoice]
  | dismiss other =>
    simp only [carryOut, dismiss, Operation.KeepsChoice]
    split_ifs with h
    · simp [h, eq_comm]
    · simp only [reduceCtorEq, false_or, ne_eq, Operation.dismiss.injEq]
      refine ⟨fun hid => ⟨hid, fun hsame => h (hsame ▸ hid), fun _ => not_false⟩, And.left⟩
  | clearExpired now => simp [carryOut, clearExpired, Operation.KeepsChoice]
  | select other => simp [carryOut, select, Operation.KeepsChoice]

/-- What keeps the choice takes a notification away only by its time. -/
theorem Operation.KeepsChoice.takes {n : Notification} (h : o.KeepsChoice n.id)
    (htakes : o.Takes n) : ∃ now, o = .clearExpired now ∧ n.isExpired now = true := by
  cases o with
  | dismiss other => exact absurd (congrArg _ htakes) h.1
  | clearExpired now => exact ⟨now, rfl, Notification.isExpired_iff.mpr htakes⟩
  | add | report | select => exact htakes.elim

/-- After an operation details are shown of a notification that is gone if they are shown of one
that the operation has cleared away, or were so before and nothing has put it right. -/
theorem showsGone_carryOut (hids : (m.notifications.map (·.id)).Nodup)
    (hselects : o = .select id → ∃ n, m.get? id = some n) :
    (m.carryOut o).ShowsGone id ↔
      (∃ now n, o = .clearExpired now ∧ m.selected = some id ∧ n ∈ m.notifications ∧ n.id = id ∧
        n.isExpired now = true) ∨
      m.ShowsGone id ∧ ¬o.Uses id ∧ o.KeepsChoice id := by
  simp only [ShowsGone, selected_carryOut, get?_eq_none, mem_carryOut]
  constructor
  · rintro ⟨rfl | ⟨hselected, hkeeps⟩, hgone⟩
    · obtain ⟨n, hn⟩ := hselects rfl
      have hid : n.id = id := by simpa using List.find?_some hn
      refine absurd hid (hgone n (.inr ⟨List.mem_of_find?_eq_some hn, ?_, not_false⟩))
      simp [Operation.Uses, Operation.added?]
    · have huses : ¬o.Uses id := by
        rintro ⟨n, hadded, hid⟩
        exact hgone n (.inl hadded) hid
      by_cases hheld : ∃ n ∈ m.notifications, n.id = id
      · obtain ⟨n, hn, rfl⟩ := hheld
        have htakes : o.Takes n := by
          by_contra hstays
          exact hgone n (.inr ⟨hn, huses, hstays⟩) rfl
        obtain ⟨now, rfl, hexpired⟩ := hkeeps.takes htakes
        exact .inl ⟨now, n, rfl, hselected, hn, rfl, hexpired⟩
      · exact .inr ⟨⟨hselected, fun n hn hid => hheld ⟨n, hn, hid⟩⟩, huses, hkeeps⟩
  · rintro (⟨now, n, rfl, hselected, hn, rfl, hexpired⟩ | ⟨⟨hselected, hgone⟩, huses, hkeeps⟩)
    · have hkeeps : (Operation.clearExpired now).KeepsChoice n.id := by
        simp [Operation.KeepsChoice]
      refine ⟨.inr ⟨hselected, hkeeps⟩, ?_⟩
      rintro other (hadded | ⟨hother, -, hstays⟩) hid
      · cases hadded
      · obtain rfl : other = n := List.inj_on_of_nodup_map hids hother hn hid
        exact hstays (Notification.isExpired_iff.mp hexpired)
    · refine ⟨.inr ⟨hselected, hkeeps⟩, ?_⟩
      rintro n (hadded | ⟨hn, -, -⟩) hid
      · exact huses ⟨n, hadded, hid⟩
      · exact hgone n hn hid

/-! ## A whole history -/

theorem isChosen_concat : IsChosen (history ++ [o]) id ↔
    o = .select id ∨ IsChosen history id ∧ o.KeepsChoice id := since_concat

/-- Details are shown of what is chosen in the history. -/
theorem selected_after : (empty.after history).selected = some id ↔ IsChosen history id := by
  induction history using List.reverseRecOn with
  | nil => exact iff_of_false nofun not_since_nil
  | append_singleton history o ih =>
    rw [after_concat, selected_carryOut, ih, isChosen_concat]

theorem SelectsHeld.init (h : SelectsHeld (history ++ [o])) : SelectsHeld history := by
  rintro earlier id later rfl
  exact h earlier id (later ++ [o]) (by simp)

/-- In every history in which details are asked for of what is held, details are shown of a
notification that is gone exactly if it has expired and been cleared away while they were shown. -/
theorem showsGone_iff (h : SelectsHeld history) :
    (empty.after history).ShowsGone id ↔ ExpiredWhileChosen history id := by
  induction history using List.reverseRecOn with
  | nil => exact iff_of_false (fun hgone => nomatch hgone.1) not_since_nil
  | append_singleton history o ih =>
    have hselects : o = .select id → ∃ n, (empty.after history).get? id = some n := by
      rintro rfl
      exact h history id [] rfl
    have hconcat : ExpiredWhileChosen (history ++ [o]) id ↔ _ := since_concat
    rw [hconcat, after_concat, showsGone_carryOut (ids_nodup_after history) hselects, ih h.init]
    simp only [selected_after, mem_after]
    rfl

/-- In every history in which details are asked for of what is held, the details that are shown are
those of a notification that is held, unless it has expired and been cleared away while they were
shown. -/
theorem selected_held_iff (h : SelectsHeld history) :
    (∀ id, (empty.after history).selected = some id →
      ∃ n, (empty.after history).get? id = some n) ↔ ∀ id, ¬ExpiredWhileChosen history id := by
  refine forall_congr' fun id => ?_
  rw [← showsGone_iff h, ShowsGone, not_and, ← ne_eq, Option.ne_none_iff_exists']

/-- A warning is added and looked at, and expired ones are cleared away some seconds later. -/
def lookedAt (seconds : Int) : List Operation :=
  [.add (.new .warning "w" "Slow export" [] "datasets" 0), .select "w",
    .clearExpired (seconds * 1000000000)]

theorem selectsHeld_lookedAt (seconds : Int) : SelectsHeld (lookedAt seconds) := by
  intro earlier id later hsplit
  rcases earlier with _ | ⟨first, _ | ⟨second, _ | ⟨third, rest⟩⟩⟩ <;>
    simp only [lookedAt, List.nil_append, List.cons_append, List.cons.injEq] at hsplit
  · exact absurd hsplit.1 nofun
  · obtain ⟨rfl, hid, -⟩ := hsplit
    obtain rfl := Operation.select.inj hid
    exact ⟨_, rfl⟩
  · exact absurd hsplit.2.2.1 nofun
  · exact absurd hsplit.2.2.2 (by simp)

/-- Within its time the warning stays. -/
theorem selected_held_iff_inTime : SelectsHeld (lookedAt 30) ∧
    (empty.after (lookedAt 30)).selected = some "w" ∧
    ∀ id, ¬ExpiredWhileChosen (lookedAt 30) id := by
  refine ⟨selectsHeld_lookedAt 30, rfl, (selected_held_iff (selectsHeld_lookedAt 30)).mp ?_⟩
  rintro id hid
  obtain rfl := Option.some.inj hid
  exact ⟨_, rfl⟩

/-- After its time the warning is gone, and its details are still shown. -/
theorem selected_gone_afterTime : SelectsHeld (lookedAt 31) ∧
    (empty.after (lookedAt 31)).selected = some "w" ∧
    (empty.after (lookedAt 31)).get? "w" = none := ⟨selectsHeld_lookedAt 31, rfl, rfl⟩

end LabExchange.NotificationManager
