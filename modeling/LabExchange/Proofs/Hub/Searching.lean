import LabExchange.Proofs.Hub.Narrowing
import LabExchange.Proofs.Text.LowerCase

/-!
# Searches by name

A search puts its text and the names in lower case, each by itself. So it finds a text that stands
in a name as long as no sigma of it becomes another one there; which texts are found wherever they
stand can be read off them.
-/
namespace LabExchange

namespace Store

variable {s : Store} {e : Entry} {text : String}

/-- An entry is in the answer to a query exactly if the filter accepts it. -/
theorem IsSound.mem_query_iff (hs : s.IsSound) (he : e ∈ s.toList) {f : EntryFilter} :
    .ofEntry e ∈ s.query f ↔ f.accepts e = true := by
  rw [query_eq_filter]
  constructor
  · intro h
    obtain ⟨g, hg, hrow⟩ := List.mem_map.mp h
    obtain ⟨hlisted, haccepts⟩ := List.mem_filter.mp hg
    obtain rfl : g = e :=
      hs.eq_of_id_eq (mem_newestFirst.mp hlisted) he (congrArg EntrySummary.id hrow)
    exact haccepts
  · intro haccepts
    exact List.mem_map_of_mem (List.mem_filter.mpr ⟨mem_newestFirst.mpr he, haccepts⟩)

/-- An entry has a row in a listing. -/
def Shows (rows : List EntrySummary) (e : Entry) : Prop := .ofEntry e ∈ rows

/-- An entry is found by a text, in a search and in a query for nothing else. -/
structure Finds (s : Store) (text : String) (e : Entry) : Prop where
  search : Shows (s.answer (.search text)).answer e
  query : Shows (s.answer (.query (.ofName text))).answer e

theorem IsSound.finds_iff (hs : s.IsSound) (he : e ∈ s.toList) :
    s.Finds text e ↔ Text.occursIgnoringCase text e.metadata.name = true := by
  have haccepts := EntryFilter.accepts_filter_iff (e := e) (c := .nameContains text)
  have hquery : .ofEntry e ∈ s.query (.ofName text) ↔
      Text.occursIgnoringCase text e.metadata.name = true := (hs.mem_query_iff he).trans haccepts
  exact ⟨fun h => hquery.mp h.query, fun h => ⟨hquery.mpr h, hquery.mpr h⟩⟩

end Store

/-- What a new hub comes to hold by the export of a function with a name. -/
def namedEntry (name : String) : Entry :=
  ⟨⟨"a"⟩, .functions, "plot", .function "x^2", ⟨name, "Exported from plot", .noon, .empty⟩, 0⟩

def exportNamed (name : String) : Call :=
  .exportData ⟨"plot", "functions", .function "x^2", some (.named name)⟩ ⟨"a"⟩ .noon

theorem toList_exportNamed (name : String) :
    (Store.empty.afterCalls [exportNamed name]).toList = [namedEntry name] := rfl

/-- In every hub that has come from a new one, a search finds an entry with the text in its name if
the sigmas of the text stay there as they are by themselves. It finds the text wherever it may stand
in a name exactly if it has no loose sigma. -/
theorem search_finds (text : String) :
    (∀ calls e before after, e ∈ (Store.empty.afterCalls calls).toList →
      e.metadata.name.toList = before ++ text.toList ++ after →
        Text.KeepsSigmas before text.toList after →
          (Store.empty.afterCalls calls).Finds text e) ∧
    ((∀ calls e, e ∈ (Store.empty.afterCalls calls).toList →
      text.toList <:+: e.metadata.name.toList → (Store.empty.afterCalls calls).Finds text e) ↔
        ¬Text.HasLooseSigma text.toList) := by
  refine ⟨fun calls e before after he hname hkeeps => ?_, fun hall hloose => ?_,
    fun hloose calls e he hinfix => ?_⟩
  · exact ((Store.isSound_afterCalls calls).finds_iff he).mpr
      (Text.occursIgnoringCase_of_keepsSigmas hname hkeeps)
  · obtain ⟨name, hinfix, hmissed⟩ := hloose.exists_missed
    have he : namedEntry name ∈ (Store.empty.afterCalls [exportNamed name]).toList :=
      toList_exportNamed name ▸ List.mem_singleton_self _
    exact hmissed (((Store.isSound_afterCalls _).finds_iff he).mp (hall _ _ he hinfix))
  · obtain ⟨before, after, hname⟩ := hinfix
    exact ((Store.isSound_afterCalls calls).finds_iff he).mpr
      (Text.occursIgnoringCase_of_keepsSigmas hname.symm
        (Text.keepsSigmas_of_not_hasLooseSigma hloose before after))

/-- The sigma at the end of a text is final there but not in a name that goes on. -/
theorem search_misses_inner_sigma :
    namedEntry "ΘΕΣΗ" ∈ (Store.empty.afterCalls [exportNamed "ΘΕΣΗ"]).toList ∧
      "ΘΕΣ".toList <:+: (namedEntry "ΘΕΣΗ").metadata.name.toList ∧
      ((Store.empty.afterCalls [exportNamed "ΘΕΣΗ"]).answer (.search "ΘΕΣ")).answer = [] ∧
      ((Store.empty.afterCalls [exportNamed "ΘΕΣΗ"]).answer
        (.query (.ofName "ΘΕΣ"))).answer = [] := by
  have hquery : (Store.empty.afterCalls [exportNamed "ΘΕΣΗ"]).query (.ofName "ΘΕΣ") = [] := by
    have hnone : [namedEntry "ΘΕΣΗ"].filter (EntryFilter.ofName "ΘΕΣ").accepts = [] := by
      decide +kernel
    simp [Store.query, toList_exportNamed, hnone, newestFirst]
  exact ⟨toList_exportNamed _ ▸ List.mem_singleton_self _, ⟨[], ['Η'], rfl⟩, hquery, hquery⟩

end LabExchange
