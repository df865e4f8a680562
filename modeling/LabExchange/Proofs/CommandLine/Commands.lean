import LabExchange.CommandLine.Run
import LabExchange.Proofs.Hub.Adequacy
import LabExchange.Proofs.Hub.Numbering
import LabExchange.Proofs.Hub.ReadEntries
import Mathlib.Data.List.Perm.Subperm

/-!
# What a command leaves

A command keeps every entry that it does not name for removal, in the old order. Only the sample
session brings new entries, and they come behind those that are there. If the ids never run out, a
command always ends.
-/
namespace LabExchange.CommandLine

/-- Whether a command asks for the removal of an entry. -/
def Command.names : Command → Entry → Bool
  | remove category id, e => e.category.name == category && e.id == ⟨id⟩
  | clear none, _ => true
  | clear (some category), e => e.category.name == category
  | counts, _ | list _, _ | search _, _ | showEntry .., _ | demo, _ => false

/-- An entry that the sample session exports. -/
def IsSample (e : Entry) : Prop :=
  ∃ x ∈ demoExports, ∃ (s : Store) (id : EntryId) (now : Timestamp),
    e = s.newEntry id now x.tab x.payload.category x.payload x.metadata

/-- What a command leaves of a store: all entries but those that it names, and behind them samples
at most. -/
structure Command.Leaves (command : Command) (s s' : Store) : Prop where
  sound : s'.IsSound
  kept : ∀ c, (s.entries c).filter (!command.names ·) <+: s'.entries c
  origin : ∀ e ∈ s'.toList,
    (∃ c, e ∈ (s.entries c).filter (!command.names ·)) ∨ IsSample e

/-! ## Sessions -/

theorem Session.store_report {α : Type} (s : Session) (result : Except HubError α) (source : String)
    {next : α → Session → Session} (hnext : ∀ a s, (next a s).store = s.store) :
    (s.report result source next).store = s.store := by
  cases result with
  | ok a => exact hnext a _
  | error e => rfl

@[simp] theorem store_printSummaries (s : Session) (summaries : List EntrySummary) :
    (printSummaries s summaries).store = s.store := by
  unfold printSummaries
  split
  · rfl
  · exact List.foldlRecOn summaries _ (motive := fun t : Session => t.store = s.store) rfl
      fun _ h _ _ => h

/-! ## Thinning out -/

namespace Command

/-- A command has removed the entries that it names, and nothing else. -/
structure Thins (command : Command) (s s' : Store) : Prop where
  sound : s'.IsSound
  entries : ∀ c, s'.entries c = (s.entries c).filter (!command.names ·)

variable {command : Command} {s s' : Store}

theorem Thins.leaves (h : command.Thins s s') : command.Leaves s s' where
  sound := h.sound
  kept c := h.entries c ▸ List.prefix_refl _
  origin e he := by
    obtain ⟨c, hc⟩ := Store.mem_toList.mp he
    exact .inl ⟨c, h.entries c ▸ hc⟩

theorem Thins.toList_eq (h : command.Thins s s') :
    s'.toList = s.toList.filter (!command.names ·) := by
  rw [Store.toList_eq, Store.toList_eq, List.filter_flatMap]
  exact List.flatMap_congr fun c _ => h.entries c

theorem thins_self (hs : s.IsSound) (hnames : ∀ e, command.names e = false) :
    command.Thins s s where
  sound := hs
  entries c := by simp [hnames]

theorem thins_withLists (hs : s.IsSound) {lists : PerCategory (List Entry)}
    (hlists : ∀ c, lists.get c = (s.entries c).filter (!command.names ·)) :
    command.Thins s (s.withLists lists) where
  sound := hs.withLists fun c => by
    rw [hlists]
    exact List.filter_sublist
  entries := hlists

theorem thins_set (hs : s.IsSound) {c : Category} {l : List Entry}
    (hlist : l = (s.entries c).filter (!command.names ·))
    (hother : ∀ e, e.category ≠ c → command.names e = false) :
    command.Thins s (s.withLists (s.lists.set c l)) := by
  refine thins_withLists hs fun d => ?_
  rw [PerCategory.get_set]
  split
  · next hd => rw [hd, hlist]
  · next hd =>
    refine (List.filter_eq_self.mpr fun e he => ?_).symm
    rw [hother e (hs.filed d e he ▸ hd)]
    rfl

theorem name_ne_of_unknown {category : String} (h : Category.ofName? category = none)
    (c : Category) : c.name ≠ category := by
  rintro rfl
  simp at h

theorem thins_remove (hs : s.IsSound) (category id : String) :
    (remove category id).Thins s (s.answer (.remove category ⟨id⟩)).store := by
  rcases Category.parse_cases category with ⟨c, rfl⟩ | ⟨hnone, hname⟩
  · rw [Store.answer, Store.inCategory_name, Store.removeEntry_store]
    refine thins_set hs ?_ fun e he => by simp [names, he]
    rw [Store.eraseP_eq_filter (hs.entries_nodup c)]
    exact List.filter_congr fun e he => by simp [names, hs.filed c e he]
  · rw [Store.answer, Store.inCategory_unknown s hname]
    exact thins_self hs fun e => by simp [names, name_ne_of_unknown hnone]

theorem thins_clear (hs : s.IsSound) (category : String) :
    (clear (some category)).Thins s (s.answer (.clear category)).store := by
  rcases Category.parse_cases category with ⟨c, rfl⟩ | ⟨hnone, hname⟩
  · rw [Store.answer, Store.inCategory_name]
    refine thins_set hs ?_ fun e he => by simp [names, he]
    exact (List.filter_eq_nil_iff.mpr fun e he => by simp [names, hs.filed c e he]).symm
  · rw [Store.answer, Store.inCategory_unknown s hname]
    exact thins_self hs fun e => by simp [names, name_ne_of_unknown hnone]

theorem thins_clearAll (hs : s.IsSound) : (clear none).Thins s (s.answer .clearAll).store := by
  refine thins_withLists hs fun c => ?_
  rw [PerCategory.get_ofFn]
  simp [names]

/-- What a command other than the sample session makes of a store. -/
def thin (s : Store) : Command → Store
  | remove category id => (s.answer (.remove category ⟨id⟩)).store
  | clear none => (s.answer .clearAll).store
  | clear (some category) => (s.answer (.clear category)).store
  | counts | list _ | search _ | showEntry .. | demo => s

theorem thins_thin (hs : s.IsSound) (command : Command) : command.Thins s (command.thin s) := by
  cases command with
  | remove category id => exact thins_remove hs category id
  | clear category =>
    cases category with
    | none => exact thins_clearAll hs
    | some category => exact thins_clear hs category
  | counts | list | search | showEntry | demo => exact thins_self hs fun _ => rfl

end Command

/-! ## The sample session -/

/-- What exports leave of a store: all entries, and samples behind them. -/
structure Adds (s s' : Store) : Prop where
  sound : s'.IsSound
  kept : ∀ c, s.entries c <+: s'.entries c
  origin : ∀ e ∈ s'.toList, e ∈ s.toList ∨ IsSample e

/-- What an export makes can be saved and loaded, if its data and its fields can. -/
theorem fits_newEntry (x : Store.Export) (hfinite : x.payload.isFinite = true)
    (hpayload : ∀ n ∈ x.payload.toJson.numbers, n.ReadsBack)
    (hextra : ∀ field ∈ (x.metadata.getD .new).extra.members, field.2.depth = 0 ∧
      ∀ n ∈ field.2.numbers, n.ReadsBack) (s : Store) (id : EntryId) (now : Timestamp) :
    (s.newEntry id now x.tab x.payload.category x.payload x.metadata).IsWritable ∧
      (s.newEntry id now x.tab x.payload.category x.payload x.metadata).IsShallow ∧
      (s.newEntry id now x.tab x.payload.category x.payload
        x.metadata).toJson.DoublesReadBack := by
  have hfield : ∀ field ∈ (s.newEntry id now x.tab x.payload.category x.payload
      x.metadata).metadata.extra.members, field ∈ (x.metadata.getD .new).extra.members :=
    fun field hfield => (List.mem_filter.mp hfield).1
  refine ⟨Store.isWritable_newEntry _ _ _ _ _ hfinite _, fun field hmem => ?_, ?_⟩
  · rw [(hextra field (hfield field hmem)).1]
    exact Nat.zero_le _
  · intro value finite hmem
    rcases Entry.mem_numbers_toJson hmem with hdata | ⟨field, hmember, hnumber⟩ | ⟨_, _, heq⟩
    · exact hpayload _ hdata
    · exact (hextra field (hfield field hmember)).2 _ hnumber
    · exact absurd heq (by nofun)

/-- All samples can be saved and loaded. -/
theorem samples_fit : ∀ x ∈ demoExports, x.payload.isFinite = true ∧
    (∀ n ∈ x.payload.toJson.numbers, n.ReadsBack) ∧
      ∀ field ∈ (x.metadata.getD .new).extra.members, field.2.depth = 0 ∧
        ∀ n ∈ field.2.numbers, n.ReadsBack := by decide +kernel

theorem IsSample.fits {e : Entry} (h : IsSample e) :
    e.IsWritable ∧ e.IsShallow ∧ e.toJson.DoublesReadBack := by
  obtain ⟨x, hx, s, id, now, rfl⟩ := h
  obtain ⟨hfinite, hpayload, hextra⟩ := samples_fit x hx
  exact fits_newEntry x hfinite hpayload hextra s id now

variable {around : Surroundings} {s s' : Session}

theorem adds_of_stored {s : Store} (hs : s.IsSound) {x : Store.Export} (hx : x ∈ demoExports)
    {id : EntryId} {now : Timestamp} {effect : Effect EntryId}
    (h : s.exportData x id now = .stored effect) : Adds s effect.store := by
  obtain ⟨c, e, hinsert, -⟩ := Store.exportData_eq_stored h
  have hsound := hs.step (Store.step_of_stored hinsert)
  obtain ⟨rfl, hstore, rfl, -⟩ := Store.insert_eq_stored hinsert
  rw [hstore] at hsound ⊢
  refine ⟨hsound, fun c => ?_, fun f hf => ?_⟩
  · rw [Store.entries_takeIn]
    split
    · exact List.prefix_append _ _
    · exact List.prefix_refl _
  · rcases Store.mem_toList_takeIn.mp hf with rfl | hold
    · exact .inr ⟨x, hx, s, id, now, rfl⟩
    · exact .inl hold

theorem adds_of_runExports {exports : List Store.Export} (hexports : exports ⊆ demoExports)
    (hs : s.store.IsSound) (h : runExports around s exports = some (.finished s')) :
    Adds s.store s'.store := by
  induction exports generalizing s with
  | nil =>
    obtain rfl := Ending.finished.inj (Option.some.inj h)
    exact ⟨hs, fun c => List.prefix_refl _, fun e he => .inl he⟩
  | cons x rest ih =>
    obtain ⟨hx, hrest⟩ := List.cons_subset.mp hexports
    unfold runExports at h
    split at h
    · next e drawn hdraw =>
      exact ih hrest (s := s.report (.error e : Except HubError EntryId) x.tab fun _ s => s) hs h
    · exact absurd h (by nofun)
    · next effect drawn hdraw =>
      obtain ⟨id, hexport⟩ := Store.exportDrawing_eq_some hdraw
      have hfirst := adds_of_stored hs hx hexport
      have hlater := ih hrest hfirst.sound h
      refine ⟨hlater.sound, fun c => (hfirst.kept c).trans (hlater.kept c), fun e he => ?_⟩
      exact (hlater.origin e he).elim (hfirst.origin e) .inr
    · exact absurd h (by nofun)

/-! ## Commands -/

/-- Every command but the sample session ends, whatever may come of it. -/
theorem exists_runCommand_eq (around : Surroundings) (s : Session) {command : Command}
    (h : command ≠ .demo) :
    ∃ s', runCommand around s command = some (.finished s') ∧
      s'.store = command.thin s.store := by
  cases command with
  | counts =>
    refine ⟨_, rfl, ?_⟩
    exact List.foldlRecOn Category.all _ (motive := fun t : Session => t.store = s.store) rfl
      fun _ h _ _ => h
  | list category =>
    cases category with
    | none => exact ⟨_, rfl, store_printSummaries _ _⟩
    | some category =>
      refine ⟨_, rfl, ?_⟩
      exact (Session.store_report _ _ _ fun summaries s => store_printSummaries s summaries).trans
        (Store.store_answer_of_reads s.store (q := .list category) rfl)
  | search text => exact ⟨_, rfl, store_printSummaries _ _⟩
  | showEntry category id =>
    refine ⟨_, rfl, (Session.store_report _ _ _ fun entry s => ?_).trans
      (Store.store_answer_of_reads s.store (q := .getEntry category ⟨id⟩) rfl)⟩
    cases entry <;> rfl
  | remove category id => exact ⟨_, rfl, Session.store_report _ _ _ fun _ _ => rfl⟩
  | clear category =>
    cases category with
    | none => exact ⟨_, rfl, rfl⟩
    | some category => exact ⟨_, rfl, Session.store_report _ _ _ fun _ _ => rfl⟩
  | demo => exact absurd rfl h

theorem leaves_of_runCommand {command : Command} (hs : s.store.IsSound)
    (h : runCommand around s command = some (.finished s')) :
    command.Leaves s.store s'.store := by
  by_cases hdemo : command = .demo
  · subst hdemo
    obtain ⟨hsound, hkept, horigin⟩ := adds_of_runExports (List.Subset.refl _) hs h
    have hall : ∀ c, (s.store.entries c).filter (!Command.demo.names ·) = s.store.entries c :=
      fun c => List.filter_eq_self.mpr fun e _ => rfl
    refine ⟨hsound, fun c => (hall c).symm ▸ hkept c, fun e he => ?_⟩
    refine (horigin e he).imp_left fun hold => ?_
    obtain ⟨c, hc⟩ := Store.mem_toList.mp hold
    exact ⟨c, (hall c).symm ▸ hc⟩
  · obtain ⟨t, hrun, hstore⟩ := exists_runCommand_eq around s hdemo
    obtain rfl := Ending.finished.inj (Option.some.inj (h.symm.trans hrun))
    rw [hstore]
    exact (Command.thins_thin hs command).leaves

/-! ## Endings -/

/-- However many ids have been issued, one that has not will be drawn. -/
def NeverSpent (supply : Supply) : Prop :=
  ∀ (issued : List EntryId) (drawn : Nat), ∃ n, drawn ≤ n ∧ supply.id n ∉ issued

/-- Ids that are all different are never spent. -/
theorem neverSpent_of_injective {supply : Supply} (h : Function.Injective supply.id) :
    NeverSpent supply := by
  intro issued drawn
  by_contra hnone
  push Not at hnone
  let ids := (List.range (issued.length + 1)).map fun k => supply.id (drawn + k)
  have hids : ids.Nodup := List.nodup_range.map fun a b hab => Nat.add_left_cancel (h hab)
  have hissued : ids ⊆ issued := by
    intro id hid
    obtain ⟨k, -, rfl⟩ := List.mem_map.mp hid
    exact hnone _ (Nat.le_add_right _ _)
  have hlength := (List.subperm_of_subset hids hissued).length_le
  rw [List.length_map, List.length_range] at hlength
  omega

/-- The same surroundings with another patience. -/
def Surroundings.withPatience (around : Surroundings) (patience : Nat) : Surroundings :=
  { around with patience := patience }

/-- The session after an export that has been stored. -/
def Session.exported (s : Session) (x : Store.Export) (effect : Effect EntryId)
    (drawn : Nat) : Session :=
  let s := { s.after effect with drawnIds := drawn, drawnTimes := s.drawnTimes + 1 }
  s.print s!"{x.tab} exported {x.payload.category.singular} {effect.answer.text}"

theorem runExports_stored {x : Store.Export} {rest : List Store.Export} {effect : Effect EntryId}
    {drawn : Nat} (h : s.store.exportDrawing x around.supply.id (around.supply.time s.drawnTimes)
      around.patience s.drawnIds = some (.stored effect, drawn)) :
    runExports around s (x :: rest) = runExports around (s.exported x effect drawn) rest := by
  rw [runExports, h]
  rfl

theorem exists_runExports_eq (hids : NeverSpent around.supply) {exports : List Store.Export}
    (hexports : ∀ x ∈ exports, x.draws = true) (s : Session) : ∃ patience, ∀ more, patience ≤ more →
      ∃ ending, runExports (around.withPatience more) s exports = some ending := by
  induction exports generalizing s with
  | nil => exact ⟨0, fun more _ => ⟨_, rfl⟩⟩
  | cons x rest ih =>
    obtain ⟨hx, hrest⟩ := List.forall_mem_cons.mp hexports
    obtain ⟨patience, n, hfresh, hdrawing⟩ := Store.exists_exportDrawing_eq hx
      (around.supply.time s.drawnTimes) (hids s.store.issued s.drawnIds)
    have hvalid := Store.ofValid_exportData (s := s.store) hx (around.supply.id n)
      (around.supply.time s.drawnTimes)
    generalize s.store.exportData x (around.supply.id n) _ = result at hvalid hdrawing
    cases hvalid with
    | redraw issued => exact absurd issued hfresh
    | exhausted fresh full =>
      refine ⟨patience, fun more hmore => ?_⟩
      have hmoreDrawing := World.exportDrawing_mono hmore hdrawing
      exact ⟨_, by simp only [runExports, Surroundings.withPatience, hmoreDrawing]; rfl⟩
    | @stored e fresh room new log =>
      -- the session that goes on does not depend on how much patience there was
      obtain ⟨later, hlater⟩ := ih hrest (s.exported x
        ⟨s.store.takeIn e, log, some (.entryCreated e e.category), e.id⟩ (n + 1))
      refine ⟨max patience later, fun more hmore => ?_⟩
      obtain ⟨hfirst, hsecond⟩ := Nat.max_le.mp hmore
      obtain ⟨ending, hending⟩ := hlater more hsecond
      have hnext : runExports (around.withPatience more) s (x :: rest) = _ :=
        runExports_stored (World.exportDrawing_mono hfirst hdrawing)
      exact ⟨ending, hnext.trans hending⟩

theorem exists_runCommand (hids : NeverSpent around.supply) (s : Session) (command : Command) :
    ∃ patience ending, runCommand (around.withPatience patience) s command = some ending := by
  by_cases hdemo : command = .demo
  · subst hdemo
    have hdraws : ∀ x ∈ demoExports, x.draws = true := by decide +kernel
    obtain ⟨patience, h⟩ := exists_runExports_eq hids hdraws s
    exact ⟨patience, h patience (Nat.le_refl _)⟩
  · obtain ⟨s', hrun, -⟩ := exists_runCommand_eq (around.withPatience 0) s hdemo
    exact ⟨0, _, hrun⟩

end LabExchange.CommandLine
