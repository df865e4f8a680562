import LabExchange.Proofs.Hub.Numbering
import LabExchange.Proofs.Hub.Recorder

/-!
# Turns of handlers

A run seen from outside: the requests in it, and the handlers that begin and end, each with the
number of dispatches around it. What a program does when nothing is dispatched around it, it does
within any dispatches as well, and none of them goes on before the program has ended. A machine has
no choice, so a run is known from its end.
-/
namespace LabExchange

variable {σ : Type}

/-- A handler that begins to handle an event. -/
structure Turn (σ : Type) where
  hub : Nat
  event : HubEvent
  handler : Nat
  program : Program σ

/-- The turn of a registered handler. -/
def Turn.of (hub : Nat) (event : HubEvent) (r : Registration σ) : Turn σ :=
  ⟨hub, event, r.id, r.handler event⟩

/-- What a run shows. Its level is the number of the dispatches around a handler, without the one
that the handler belongs to. -/
inductive Sign (σ : Type) where
  | asked (moment : Moment σ)
  | begun (level : Nat) (turn : Turn σ)
  | ended (level handler : Nat) (outcome : Outcome)

namespace Sign

/-- The requests among some signs. -/
def moments (signs : List (Sign σ)) : List (Moment σ) :=
  signs.filterMap fun
    | asked a => some a
    | _ => none

/-- The turns that begin at a level. -/
def turnsAt (level : Nat) (signs : List (Sign σ)) : List (Turn σ) :=
  signs.filterMap fun
    | begun l turn => if l = level then some turn else none
    | _ => none

/-- The handlers that end at a level, each with how it does. -/
def endingsAt (level : Nat) (signs : List (Sign σ)) : List (Nat × Outcome) :=
  signs.filterMap fun
    | ended l handler outcome => if l = level then some (handler, outcome) else none
    | _ => none

variable (s s' : List (Sign σ)) (level : Nat)

@[simp] theorem moments_append : moments (s ++ s') = moments s ++ moments s' :=
  List.filterMap_append

@[simp] theorem turnsAt_append : turnsAt level (s ++ s') = turnsAt level s ++ turnsAt level s' :=
  List.filterMap_append

@[simp] theorem endingsAt_append :
    endingsAt level (s ++ s') = endingsAt level s ++ endingsAt level s' :=
  List.filterMap_append

@[simp] theorem moments_map_asked (t : List (Moment σ)) : moments (t.map asked) = t := by
  simp [moments, List.filterMap_map]

@[simp] theorem turnsAt_map_asked (t : List (Moment σ)) : turnsAt level (t.map asked) = [] := by
  simp [turnsAt, List.filterMap_map]

@[simp] theorem endingsAt_map_asked (t : List (Moment σ)) :
    endingsAt level (t.map asked) = [] := by
  simp [endingsAt, List.filterMap_map]

end Sign

namespace Machine

variable {supply : Supply} {m m' m'' : Machine σ} {t t' : List (Moment σ)}
  {s s' : List (Sign σ)} {floor : Nat}

/-! ## Signs of a step -/

/-- The handler that ends with the program of a machine. -/
def endings (m : Machine σ) : List (Sign σ) :=
  match m.program, m.dispatches with
  | .finish o, d :: ds => [.ended ds.length d.running o]
  | _, _ => []

/-- The handler that begins in a step. It does when a dispatch comes on top of those that go on. -/
def beginnings (m m' : Machine σ) : List (Sign σ) :=
  match m'.dispatches with
  | [] => []
  | d :: ds =>
    if ds.length = m.outer.length then [.begun ds.length ⟨d.hub, d.event, d.running, m'.program⟩]
    else []

/-- What a step shows. -/
def signs (m : Machine σ) (t : List (Moment σ)) (m' : Machine σ) : List (Sign σ) :=
  m.endings ++ t.map .asked ++ m.beginnings m'

/-- No handler begins when nothing comes on top. -/
theorem beginnings_of_length_le (h : m'.dispatches.length ≤ m.outer.length) :
    m.beginnings m' = [] := by
  unfold beginnings
  split
  · rfl
  · next d ds hds =>
    rw [hds, List.length_cons] at h
    exact if_neg (by omega)

/-- Handing out an event begins with the first of its handlers. -/
theorem beginnings_deliver {hub : Nat} {event : HubEvent} {next : DispatchReport → Program σ}
    {ds : List (Dispatch σ)} (handlers : List (Registration σ)) (report : DispatchReport)
    (w : World σ) (hds : m.outer.length = ds.length) :
    m.beginnings (deliver hub event next ds handlers report w) =
      (handlers.take 1).map fun r => .begun ds.length (.of hub event r) := by
  cases handlers with
  | nil => exact beginnings_of_length_le (Nat.le_of_eq hds.symm)
  | cons r rest => simp [beginnings, deliver, hds, Turn.of]

@[simp] theorem turnsAt_endings (k : Nat) (m : Machine σ) : Sign.turnsAt k m.endings = [] := by
  unfold endings
  split <;> rfl

@[simp] theorem endingsAt_beginnings (k : Nat) (m m' : Machine σ) :
    Sign.endingsAt k (m.beginnings m') = [] := by
  unfold beginnings
  split
  · rfl
  · split <;> rfl

@[simp] theorem moments_signs : Sign.moments (m.signs t m') = t := by
  have hendings : Sign.moments m.endings = [] := by
    unfold endings
    split <;> rfl
  have hbeginnings : Sign.moments (m.beginnings m') = [] := by
    unfold beginnings
    split
    · rfl
    · split <;> rfl
  simp [signs, hendings, hbeginnings]

theorem turnsAt_signs (k : Nat) :
    Sign.turnsAt k (m.signs t m') = Sign.turnsAt k (m.beginnings m') := by
  simp [signs]

theorem endingsAt_signs (k : Nat) :
    Sign.endingsAt k (m.signs t m') = Sign.endingsAt k m.endings := by
  simp [signs]

/-- Handlers begin at the level of the dispatches that go on. -/
theorem turnsAt_signs_of_ne {k : Nat} (h : m.outer.length ≠ k) :
    Sign.turnsAt k (m.signs t m') = [] := by
  rw [turnsAt_signs]
  unfold beginnings
  split
  · rfl
  · split
    · next heq =>
      simp [Sign.turnsAt, heq, h]
    · rfl

/-! ## Signs of a run -/

/-- A run with all that it shows, in which no step is made with fewer dispatches than some. -/
inductive Passes (supply : Supply) (floor : Nat) : Machine σ → List (Sign σ) → Machine σ → Prop
  | refl (m : Machine σ) : Passes supply floor m [] m
  | step {m m' m'' : Machine σ} {t : List (Moment σ)} {s : List (Sign σ)}
      (h : Step supply m t m') (hfloor : floor ≤ m.dispatches.length)
      (rest : Passes supply floor m' s m'') : Passes supply floor m (m.signs t m' ++ s) m''

namespace Passes

theorem trans (h : Passes supply floor m s m') (h' : Passes supply floor m' s' m'') :
    Passes supply floor m (s ++ s') m'' := by
  induction h with
  | refl m => exact h'
  | step h hfloor rest ih =>
    rw [List.append_assoc]
    exact .step h hfloor (ih h')

theorem runs (h : Passes supply floor m s m') : Runs supply m (Sign.moments s) m' := by
  induction h with
  | refl m => exact .refl m
  | step h hfloor rest ih =>
    rw [Sign.moments_append, moments_signs]
    exact .step h ih

end Passes

/-- Every run shows something. -/
theorem Runs.exists_passes (h : Runs supply m t m') :
    ∃ s, Passes supply 0 m s m' ∧ Sign.moments s = t := by
  induction h with
  | refl m => exact ⟨[], .refl m, rfl⟩
  | step h rest ih =>
    obtain ⟨s, hpasses, hmoments⟩ := ih
    refine ⟨_, .step h (Nat.zero_le _) hpasses, ?_⟩
    rw [Sign.moments_append, moments_signs, hmoments]

/-! ## Within dispatches -/

/-- A machine within some dispatches. -/
def within (m : Machine σ) (ds : List (Dispatch σ)) : Machine σ :=
  { m with dispatches := m.dispatches ++ ds }

theorem deliver_within (hub : Nat) (event : HubEvent) (next : DispatchReport → Program σ)
    (inner ds : List (Dispatch σ)) (handlers : List (Registration σ)) (report : DispatchReport)
    (w : World σ) :
    (deliver hub event next inner handlers report w).within ds =
      deliver hub event next (inner ++ ds) handlers report w := by
  cases handlers <;> rfl

/-- A step does not depend on what is dispatched around it. -/
theorem Step.within (h : Step supply m t m') (ds : List (Dispatch σ)) :
    Step supply (m.within ds) t (m'.within ds) := by
  cases h with
  | answered patience hreply => exact .answered patience hreply
  | raised patience hreply =>
    rw [dispatch, deliver_within]
    exact .raised patience hreply
  | panicked patience hreply => exact .panicked patience hreply
  | subscribed w inner hub kind handler next => exact .subscribed w _ hub kind handler next
  | recalled w inner next => exact .recalled w _ next
  | remembered w inner change next => exact .remembered w _ change next
  | handled w d inner o =>
    rw [afterHandler, deliver_within]
    exact .handled w d (inner ++ ds) o

theorem Runs.exists_passes_within (h : Runs supply m t m') (ds : List (Dispatch σ)) :
    ∃ s, Passes supply ds.length (m.within ds) s (m'.within ds) := by
  induction h with
  | refl m => exact ⟨[], .refl _⟩
  | @step m m' m'' t t' h rest ih =>
    obtain ⟨s, hpasses⟩ := ih
    have hfloor : ds.length ≤ (m.dispatches ++ ds).length := by simp
    exact ⟨_, .step (h.within ds) hfloor hpasses⟩

/-! ## No choice -/

/-- There is one step at most from a machine. -/
theorem Step.unique {m₁ m₂ : Machine σ} {t₁ t₂ : List (Moment σ)} (h₁ : Step supply m t₁ m₁)
    (h₂ : Step supply m t₂ m₂) : t₁ = t₂ ∧ m₁ = m₂ := by
  cases h₁ with
  | answered patience h =>
    cases h₂ with
    | answered patience' h' =>
      obtain ⟨rfl, rfl⟩ := Reply.done.inj (World.reply_unique h h' nofun nofun)
      exact ⟨rfl, rfl⟩
    | raised patience' h' => exact absurd (World.reply_unique h h' nofun nofun) nofun
    | panicked patience' h' => exact absurd (World.reply_unique h h' nofun nofun) nofun
  | raised patience h =>
    cases h₂ with
    | answered patience' h' => exact absurd (World.reply_unique h h' nofun nofun) nofun
    | raised patience' h' =>
      obtain ⟨rfl, rfl, rfl, rfl⟩ := Reply.raises.inj (World.reply_unique h h' nofun nofun)
      exact ⟨rfl, rfl⟩
    | panicked patience' h' => exact absurd (World.reply_unique h h' nofun nofun) nofun
  | panicked patience h =>
    cases h₂ with
    | answered patience' h' => exact absurd (World.reply_unique h h' nofun nofun) nofun
    | raised patience' h' => exact absurd (World.reply_unique h h' nofun nofun) nofun
    | panicked patience' h' =>
      obtain ⟨rfl, rfl⟩ := Reply.panics.inj (World.reply_unique h h' nofun nofun)
      exact ⟨rfl, rfl⟩
  | subscribed | recalled | remembered | handled =>
    cases h₂
    trivial

/-- A machine whose program has ended outside of any dispatch. -/
def IsOver (m : Machine σ) : Prop := ∃ o w, m = ⟨w, .finish o, []⟩

theorem IsOver.no_step (hm : m.IsOver) : ¬Step supply m t m' := by
  obtain ⟨o, w, rfl⟩ := hm
  exact nofun

/-- A run that is over is the only one from its beginning that is. -/
theorem Passes.unique {m₁ m₂ : Machine σ} {s₁ s₂ : List (Sign σ)}
    (h₁ : Passes supply floor m s₁ m₁) (hm₁ : m₁.IsOver) (h₂ : Passes supply floor m s₂ m₂)
    (hm₂ : m₂.IsOver) : s₁ = s₂ ∧ m₁ = m₂ := by
  induction h₁ generalizing s₂ with
  | refl m =>
    cases h₂ with
    | refl => exact ⟨rfl, rfl⟩
    | step h hfloor rest => exact absurd h hm₁.no_step
  | step h hfloor rest ih =>
    cases h₂ with
    | refl => exact absurd h hm₂.no_step
    | step h' hfloor' rest' =>
      obtain ⟨rfl, rfl⟩ := h.unique h'
      obtain ⟨rfl, rfl⟩ := ih hm₁ rest'
      exact ⟨rfl, rfl⟩

end Machine
end LabExchange
