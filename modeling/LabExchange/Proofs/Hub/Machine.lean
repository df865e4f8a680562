import LabExchange.Hub.Run

/-!
# Running step by step

A run taken apart into single steps. The machine keeps a stack of the events that are being
dispatched, so that what a handler does is part of the run like everything else, and a run shows
each request at its moment. No fuel is needed: a run without end is one that can always be
prolonged.
-/
namespace LabExchange

/-- An event that is being dispatched while one of its handlers runs. -/
structure Dispatch (σ : Type) where
  hub : Nat
  event : HubEvent
  /-- The handler that is running. -/
  running : Nat
  waiting : List (Registration σ)
  report : DispatchReport
  /-- How the program goes on that has raised the event. -/
  next : DispatchReport → Program σ

/-- A world in which a program runs, with the dispatches around it, the innermost first. -/
structure Machine (σ : Type) where
  world : World σ
  program : Program σ
  dispatches : List (Dispatch σ)

/-- A request with the world in which it is made and what it comes to. -/
structure Moment (σ : Type) where
  before : World σ
  request : Request
  reply : Reply σ request.Answer

namespace Machine

variable {σ : Type}

/-- Hands an event to the next of its handlers, or goes on after it. -/
def deliver (hub : Nat) (event : HubEvent) (next : DispatchReport → Program σ)
    (ds : List (Dispatch σ)) : List (Registration σ) → DispatchReport → World σ → Machine σ
  | [], report, w => ⟨w.endDispatch hub, next report, ds⟩
  | r :: rest, report, w =>
    ⟨{ w with depth := w.depth + 1 }, r.handler event,
      ⟨hub, event, r.id, rest, report, next⟩ :: ds⟩

/-- Begins to dispatch an event to the handlers that a hub has for it now. -/
def dispatch (hub : Nat) (event : HubEvent) (next : DispatchReport → Program σ)
    (ds : List (Dispatch σ)) (w : World σ) : Machine σ :=
  let handlers := ((w.hub? hub).map (·.handlersOf event.kind)).getD []
  deliver hub event next ds handlers .empty
    (w.beginDispatch hub |>.addLog [event.dispatchLine handlers.length])

/-- Goes on after a handler has ended. -/
def afterHandler (d : Dispatch σ) (ds : List (Dispatch σ)) (o : Outcome) (w : World σ) :
    Machine σ :=
  deliver d.hub d.event d.next ds d.waiting (d.report.count o)
    ({ w with depth := w.depth - 1 }.addLog (o.warning d.running d.event.kind))

/-- One step of a machine, with the moment of a request if the step is one. -/
inductive Step (supply : Supply) : Machine σ → List (Moment σ) → Machine σ → Prop
  | answered {w w' : World σ} {ds : List (Dispatch σ)} {r : Request} {next : r.Answer → Program σ}
      {answer : r.Answer} (patience : Nat) (h : w.reply supply patience r = .done answer w') :
      Step supply ⟨w, .request r next, ds⟩ [⟨w, r, .done answer w'⟩] ⟨w', next answer, ds⟩
  | raised {w w' : World σ} {ds : List (Dispatch σ)} {r : Request} {next : r.Answer → Program σ}
      {hub : Nat} {event : HubEvent} {answer : DispatchReport → r.Answer} (patience : Nat)
      (h : w.reply supply patience r = .raises hub event answer w') :
      Step supply ⟨w, .request r next, ds⟩ [⟨w, r, .raises hub event answer w'⟩]
        (dispatch hub event (fun report => next (answer report)) ds w')
  | panicked {w w' : World σ} {ds : List (Dispatch σ)} {r : Request} {next : r.Answer → Program σ}
      {message : String} (patience : Nat) (h : w.reply supply patience r = .panics message w') :
      Step supply ⟨w, .request r next, ds⟩ [⟨w, r, .panics message w'⟩]
        ⟨w', .finish (.panicked (some message)), ds⟩
  | subscribed (w : World σ) (ds : List (Dispatch σ)) (hub : Nat) (kind : EventKind)
      (handler : Handler σ) (next : Option Subscription → Program σ) :
      Step supply ⟨w, .subscribe hub kind handler next, ds⟩ []
        ⟨(w.subscribe hub kind handler).2, next (w.subscribe hub kind handler).1, ds⟩
  | recalled (w : World σ) (ds : List (Dispatch σ)) (next : σ → Program σ) :
      Step supply ⟨w, .recall next, ds⟩ [] ⟨w, next w.memory, ds⟩
  | remembered (w : World σ) (ds : List (Dispatch σ)) (change : σ → σ) (next : Program σ) :
      Step supply ⟨w, .remember change next, ds⟩ []
        ⟨{ w with memory := change w.memory }, next, ds⟩
  | handled (w : World σ) (d : Dispatch σ) (ds : List (Dispatch σ)) (o : Outcome) :
      Step supply ⟨w, .finish o, d :: ds⟩ [] (afterHandler d ds o w)

/-- A run with all its moments in their order. -/
inductive Runs (supply : Supply) : Machine σ → List (Moment σ) → Machine σ → Prop
  | refl (m : Machine σ) : Runs supply m [] m
  | step {m m' m'' : Machine σ} {t t' : List (Moment σ)} (h : Step supply m t m')
      (rest : Runs supply m' t' m'') : Runs supply m (t ++ t') m''

theorem Runs.trans {supply : Supply} {m m' m'' : Machine σ} {t t' : List (Moment σ)}
    (h : Runs supply m t m') (h' : Runs supply m' t' m'') : Runs supply m (t ++ t') m'' := by
  induction h with
  | refl m => exact h'
  | step h rest ih =>
    rw [List.append_assoc]
    exact .step h (ih h')

theorem Step.runs {supply : Supply} {m m' : Machine σ} {t : List (Moment σ)}
    (h : Step supply m t m') : Runs supply m t m' := by
  have hrun := Runs.step h (.refl m')
  rwa [List.append_nil] at hrun

/-! ## Where events come from -/

/-- An event that is being dispatched is one that has been raised at a moment. -/
def RaisedIn (t : List (Moment σ)) (d : Dispatch σ) : Prop :=
  ∃ a ∈ t, ∃ answer w, a.reply = .raises d.hub d.event answer w

theorem RaisedIn.mono {t t' : List (Moment σ)} {d : Dispatch σ} (h : RaisedIn t d) (ht : t ⊆ t') :
    RaisedIn t' d := by
  obtain ⟨a, ha, hreply⟩ := h
  exact ⟨a, ht ha, hreply⟩

/-- Handing out an event puts no other event on the stack. -/
theorem mem_dispatches_deliver {hub : Nat} {event : HubEvent} {next : DispatchReport → Program σ}
    {ds : List (Dispatch σ)} {handlers : List (Registration σ)} {report : DispatchReport}
    {w : World σ} {d : Dispatch σ}
    (hd : d ∈ (deliver hub event next ds handlers report w).dispatches) :
    d ∈ ds ∨ d.hub = hub ∧ d.event = event := by
  cases handlers with
  | nil => exact .inl hd
  | cons r rest =>
    rcases List.mem_cons.mp hd with rfl | hold
    · exact .inr ⟨rfl, rfl⟩
    · exact .inl hold

theorem Step.raisedIn {supply : Supply} {m m' : Machine σ} {t : List (Moment σ)}
    (h : Step supply m t m') {d : Dispatch σ} (hd : d ∈ m'.dispatches) :
    (∃ d₀ ∈ m.dispatches, d₀.hub = d.hub ∧ d₀.event = d.event) ∨ RaisedIn t d := by
  cases h with
  | raised patience hreply =>
    rcases mem_dispatches_deliver hd with hold | ⟨rfl, rfl⟩
    · exact .inl ⟨d, hold, rfl, rfl⟩
    · exact .inr ⟨_, List.mem_singleton_self _, _, _, rfl⟩
  | handled w d₀ ds o =>
    rcases mem_dispatches_deliver hd with hold | ⟨hhub, hevent⟩
    · exact .inl ⟨d, List.mem_cons_of_mem _ hold, rfl, rfl⟩
    · exact .inl ⟨d₀, List.mem_cons_self, hhub.symm, hevent.symm⟩
  | answered | panicked | subscribed | recalled | remembered => exact .inl ⟨d, hd, rfl, rfl⟩

theorem Runs.raisedIn_or {supply : Supply} {m m' : Machine σ} {t : List (Moment σ)}
    (h : Runs supply m t m') {d : Dispatch σ} (hd : d ∈ m'.dispatches) :
    (∃ d₀ ∈ m.dispatches, d₀.hub = d.hub ∧ d₀.event = d.event) ∨ RaisedIn t d := by
  induction h with
  | refl m => exact .inl ⟨d, hd, rfl, rfl⟩
  | step h rest ih =>
    rcases ih hd with ⟨d₀, hd₀, hhub, hevent⟩ | hraised
    · rcases h.raisedIn hd₀ with ⟨d₁, hd₁, hhub', hevent'⟩ | ⟨a, ha, hreply⟩
      · exact .inl ⟨d₁, hd₁, hhub'.trans hhub, hevent'.trans hevent⟩
      · rw [hhub, hevent] at hreply
        exact .inr ⟨a, List.mem_append_left _ ha, hreply⟩
    · exact .inr (hraised.mono (List.subset_append_right _ _))

/-- In a run that begins outside of any dispatch, each event that is being dispatched has been
raised on the way. -/
theorem Runs.raisedIn {supply : Supply} {w : World σ} {p : Program σ} {m : Machine σ}
    {t : List (Moment σ)} (h : Runs supply ⟨w, p, []⟩ t m) {d : Dispatch σ}
    (hd : d ∈ m.dispatches) : RaisedIn t d := by
  rcases h.raisedIn_or hd with ⟨d₀, hd₀, -⟩ | hraised
  · exact absurd hd₀ List.not_mem_nil
  · exact hraised

end Machine
end LabExchange
