import LabExchange.Proofs.Hub.Lockstep
import LabExchange.Proofs.Hub.PanelRuns

/-!
# Handlers that fail

How a handler ends is nobody else's business. Two runs in which the same programs make the same
requests, but handlers end in different ways, give the same answers, leave the same entries and
handlers, and hand out the same events; only the reports on them and the warnings in the log are
different.
-/
namespace LabExchange

variable {σ : Type} {supply : Supply}

namespace Comparison

/-- Two runs with the same ids and times in which handlers may end as they like. Reports are taken
for the same if they count equally many handlers, and what is logged about handlers that have
failed is not compared. -/
def failures (supply : Supply) : Comparison where
  first := supply
  second := supply
  outcomes _ _ := True
  reports r r' := r'.delivered + r'.failed = r.delivered + r.failed
  compares line := !(line.level == .warn && line.source == .events)
  hidden _ := False
  same _ := trivial
  empty := rfl
  count := by
    intro r r' o o' hr _
    cases o <;> cases o' <;> simp only [DispatchReport.count] <;> omega
  warning := by
    intro o o' id kind _
    cases o <;> cases o' <;> rfl

theorem not_brings (supply : Supply) (a : Moment σ) : ¬a.Brings (failures supply).hidden := by
  obtain ⟨w, r, reply⟩ := a
  cases r with
  | store i q =>
    cases q with
    | restore snapshot => exact fun ⟨_, _, hhidden⟩ => hhidden
    | _ => exact id
  | load i path => exact fun ⟨_, _, _, _, _, hhidden⟩ => hhidden
  | _ => exact id

end Comparison

namespace Machine

open Comparison (failures not_brings)

variable {w w' : World σ} {p p' : Program σ}

/-- Nothing is dispatched at level zero. -/
theorem Passes.depth_eq_zero {s : List (Sign σ)} {m : Machine σ}
    (h : Passes supply 0 ⟨w, p, []⟩ s m) (hdepth : w.depth = 0) (hm : m.dispatches = []) :
    m.world.depth = 0 := by
  have hlevel : m.IsLevel := h.runs.isLevel hdepth
  rw [hlevel, hm]
  rfl

/-- Two worlds whose handlers do the same and end as they like, and two programs that do the same
whatever a report counts as failed: whatever is seen in a run of the one is seen in a run of the
other, sign by sign, the answers and the events for each handler among them, and so are the
worlds on the way. The one ends if and only if the other does, and there is one way to end. No
handler is running when nothing is dispatched, however handlers have ended. -/
theorem failures_isolated (hw : w.Alike (failures supply) w') (hp : p.Alike (failures supply) p')
    (hdepth : w.depth = 0) :
    (∀ s m, Passes supply 0 ⟨w, p, []⟩ s m → ∃ s' m', Passes supply 0 ⟨w', p', []⟩ s' m' ∧
      m.Alike (failures supply) m' ∧ List.Forall₂ (Sign.Alike (failures supply)) s s' ∧
      (m.dispatches = [] → m.world.depth = 0 ∧ m'.dispatches = [] ∧ m'.world.depth = 0)) ∧
    ((∃ s m, Passes supply 0 ⟨w, p, []⟩ s m ∧ m.IsOver) ↔
      ∃ s' m', Passes supply 0 ⟨w', p', []⟩ s' m' ∧ m'.IsOver) ∧
    (∀ s m s' m', Passes supply 0 ⟨w, p, []⟩ s m → m.IsOver →
      Passes supply 0 ⟨w', p', []⟩ s' m' → m'.IsOver →
      m.Alike (failures supply) m' ∧ List.Forall₂ (Sign.Alike (failures supply)) s s') := by
  have hm : Alike (failures supply) ⟨w, p, []⟩ ⟨w', p', []⟩ := ⟨hw, hp, .nil⟩
  refine ⟨fun s m h => ?_, ⟨?_, ?_⟩, fun s m s' m' h hover h' hover' => ?_⟩
  · obtain ⟨s', m', h', hlast, hsigns⟩ := Passes.alike (c := failures supply) h hm
      fun a _ => not_brings supply a
    refine ⟨s', m', h', hlast, hsigns, fun hnone => ⟨h.depth_eq_zero hdepth hnone, ?_⟩⟩
    have hnone' : m'.dispatches = [] := by
      have hdispatches := hlast.dispatches
      rw [hnone] at hdispatches
      exact List.forall₂_nil_left_iff.mp hdispatches
    exact ⟨hnone', h'.depth_eq_zero (hw.depth.trans hdepth) hnone'⟩
  · rintro ⟨s, m, h, hover⟩
    obtain ⟨s', m', h', hlast, -⟩ := Passes.alike (c := failures supply) h hm
      fun a _ => not_brings supply a
    exact ⟨s', m', h', hlast.isOver hover⟩
  · rintro ⟨s', m', h', hover⟩
    obtain ⟨s, m, h, hlast, -⟩ := Passes.alike (c := (failures supply).flip) h' hm.flip
      fun a _ => not_brings supply a
    exact ⟨s, m, h, hlast.isOver hover⟩
  · exact Passes.alike_of_isOver (c := failures supply) h hover hm
      (fun a _ => not_brings supply a) h' hover'

/-- A world with a hub that has a handler for new entries which ends in some way. -/
def worldWithHandler (o : Outcome) : World Unit :=
  { World.new 0 ⟨[], .empty⟩ () with
    hubs := [Hub.new.register .entryCreated fun _ => .finish o] }

/-- An export is carried out in the same way whether the handler of the new entry goes through or
panics. The panic leaves one more line in the log. -/
theorem failures_isolated_panic : ∃ s m s' m',
    Passes standingSupply 0 ⟨worldWithHandler .succeeded,
      .request exportSquare fun _ => .finish .succeeded, []⟩ s m ∧
    Passes standingSupply 0 ⟨worldWithHandler (.panicked none),
      .request exportSquare fun _ => .finish .succeeded, []⟩ s' m' ∧
    m'.world.log.length = m.world.log.length + 1 ∧
    m.Alike (failures standingSupply) m' ∧
    List.Forall₂ (Sign.Alike (failures standingSupply)) s s' := by
  have hw : (worldWithHandler .succeeded).Alike (failures standingSupply)
      (worldWithHandler (.panicked none)) := by
    refine ⟨.cons ?_ .nil, rfl, rfl, rfl, rfl, rfl, rfl, fun k => ⟨rfl, id⟩, fun _ => rfl⟩
    exact ⟨rfl, rfl, .refl _, rfl, .cons ⟨rfl, rfl, fun _ => .finish trivial⟩ .nil⟩
  have hp : Program.Alike (σ := Unit) (failures standingSupply)
      (.request exportSquare fun _ => .finish .succeeded)
      (.request exportSquare fun _ => .finish .succeeded) :=
    .request exportSquare fun _ _ _ => .finish trivial
  have hrun : ∀ o, ∃ s m, Passes standingSupply 0 ⟨worldWithHandler o,
      .request exportSquare fun _ => .finish .succeeded, []⟩ s m ∧ m.IsOver ∧
      m.world.log.length = 2 + (o.warning 0 .entryCreated).length := by
    intro o
    apply Exists.intro
    apply Exists.intro
    constructor
    · apply Passes.step (by exact .raised 1 rfl) (Nat.zero_le _)
      apply Passes.step (.handled _ _ _ _) (Nat.zero_le _)
      exact .refl _
    · refine ⟨⟨_, _, rfl⟩, ?_⟩
      cases o <;> rfl
  obtain ⟨s, m, h, hover, hlog⟩ := hrun .succeeded
  obtain ⟨s', m', h', hover', hlog'⟩ := hrun (.panicked none)
  obtain ⟨halike, hsigns⟩ := (failures_isolated hw hp rfl).2.2 s m s' m' h hover h' hover'
  exact ⟨s, m, s', m', h, h', by rw [hlog, hlog']; rfl, halike, hsigns⟩

end Machine
end LabExchange
