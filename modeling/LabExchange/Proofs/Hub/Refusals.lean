import LabExchange.Proofs.Hub.Lockstep

/-!
# Calls that fail

A call fails if a name in it is not that of a category, or if it is an export whose payload is of
another category or holds a number that is not finite. Then nothing at all has changed. An export
that finds the sequence numbers used up panics when it has drawn an id; the id counts as issued
from then on, but it was given to nobody. Unless somebody comes upon the same id, nothing that is
done later shows that there has been an export.
-/
namespace LabExchange

variable {σ : Type}

/-! ## Which calls fail -/

/-- A text is one of the seven names. -/
def Category.IsName (text : String) : Prop := ∃ c, Category.name c = text

/-- The numbers in a payload. -/
def Payload.numbers : Payload → List Double
  | matrix rows => rows.flatten
  | array values | vector values => values
  | scalar value => [value]
  | function _ => []
  | complex value => [value.re, value.im]
  | dataset value => value.inputs.flatten ++ value.outputs.flatten

theorem Payload.isFinite_iff (p : Payload) :
    p.isFinite = true ↔ ∀ x ∈ p.numbers, x.isFinite = true := by
  cases p with
  | complex value => simp [isFinite, numbers, ComplexValue.isFinite]
  | dataset value =>
    simp only [isFinite, numbers, Dataset.isFinite, List.all_append, Bool.and_eq_true,
      List.all_eq_true, List.mem_append, List.mem_flatten]
    grind
  | matrix rows =>
    simp only [isFinite, numbers, List.all_eq_true, List.mem_flatten]
    grind
  | array | vector | scalar | function => simp [isFinite, numbers]

/-- The names in a request, in the order in which they are looked at. -/
def StoreRequest.names : StoreRequest → List String
  | importData name _ | importAll name | getEntry name _ | getLatest name | remove name _
  | clear name | list name => [name]
  | requestUse name _ target => [name, target]
  | clearAll | listAll | counts | query _ | restore _ => []

/-- The errors with which calls fail. The first name that is none counts, the category of an
export comes before the kind of its payload, and that before its numbers. -/
inductive Request.Fails : Request → HubError → Prop
  | unknown (hub : Nat) {q : StoreRequest} {earlier later : List String} {name : String}
      (names : q.names = earlier ++ name :: later) (known : ∀ n ∈ earlier, Category.IsName n)
      (unknown : ¬Category.IsName name) : Fails (.store hub q) (.unknownCategory name)
  | unknownExport (hub : Nat) {x : Store.Export} (unknown : ¬Category.IsName x.category) :
      Fails (.exportData hub x) (.unknownCategory x.category)
  | mismatch (hub : Nat) {x : Store.Export} {c : Category} (name : x.category = c.name)
      (kind : x.payload.category ≠ c) :
      Fails (.exportData hub x) (.payloadMismatch c x.payload.category)
  | nonFinite (hub : Nat) {x : Store.Export} {c : Category} (name : x.category = c.name)
      (kind : x.payload.category = c) {number : Double} (mem : number ∈ x.payload.numbers)
      (infinite : number.isFinite = false) : Fails (.exportData hub x) (.nonFiniteValue c)

/-- The error in a result. -/
def HubError.of {α : Type} : Except HubError α → Option HubError
  | .error e => some e
  | .ok _ => none

/-- The error in an answer to a request about the entries. -/
def StoreRequest.error? : (q : StoreRequest) → q.Answer → Option HubError
  | importData .., a | importAll _, a | getEntry .., a | getLatest _, a | remove .., a | clear _, a
  | list _, a | requestUse .., a => HubError.of a
  | clearAll, _ | listAll, _ | counts, _ | query _, _ | restore _, _ => none

/-- The error in an answer to a call on a hub. -/
def Request.error? : (r : Request) → r.Answer → Option HubError
  | .store _ q, some a => q.error? a
  | .exportData .., some a => HubError.of a
  | _, _ => none

/-- A request about the entries of a hub, or an export. -/
inductive Request.IsCallOn (hub : Nat) : Request → Prop
  | store (q : StoreRequest) : IsCallOn hub (.store hub q)
  | exportData (x : Store.Export) : IsCallOn hub (.exportData hub x)

namespace Store

variable {s : Store}

theorem parse_of_not_isName {name : String} (h : ¬Category.IsName name) :
    Category.parse name = .error (.unknownCategory name) := by
  rcases Category.parse_cases name with ⟨c, rfl⟩ | ⟨-, hparse⟩
  · exact absurd ⟨c, rfl⟩ h
  · exact hparse

theorem not_isName_of_parse {name : String} (h : Category.ofName? name = none) :
    ¬Category.IsName name := by
  rintro ⟨c, rfl⟩
  rw [Category.ofName?_name] at h
  contradiction

/-- A request with a name that is none is refused, and that is all that happens. -/
theorem answer_of_unknown {q : StoreRequest} {earlier later : List String} {name : String}
    (hnames : q.names = earlier ++ name :: later) (hknown : ∀ n ∈ earlier, Category.IsName n)
    (hname : ¬Category.IsName name) :
    ∃ a, q.error? a = some (.unknownCategory name) ∧ s.answer q = s.reply a := by
  have hparse := parse_of_not_isName hname
  cases q with
  | requestUse source id target =>
    rcases earlier with _ | ⟨first, earlier⟩
    · obtain ⟨rfl, -⟩ := List.cons.inj hnames
      exact ⟨.error _, rfl, inCategory_unknown s hparse _⟩
    · obtain ⟨rfl, hrest⟩ := List.cons.inj hnames
      obtain ⟨c, rfl⟩ := hknown _ List.mem_cons_self
      obtain rfl : target = name := by
        rcases earlier with _ | ⟨second, earlier⟩
        · exact (List.cons.inj hrest).1
        · simp at hrest
      refine ⟨.error _, rfl, ?_⟩
      rw [Store.answer, inCategory_name, inCategory_unknown s hparse]
      rfl
  | clearAll | listAll | counts | query | restore => simp [StoreRequest.names] at hnames
  | importData | importAll | getEntry | getLatest | remove | clear | list =>
    have hmem : name ∈ StoreRequest.names _ :=
      hnames ▸ List.mem_append_right earlier List.mem_cons_self
    obtain rfl := List.mem_singleton.mp hmem
    exact ⟨.error _, rfl, inCategory_unknown s hparse _⟩

/-- An error comes from the name, or from what is done with its category. -/
theorem error_inCategory {α : Type} {name : String} {f : Category → Effect (Except HubError α)}
    {e : HubError} (h : HubError.of (s.inCategory name f).answer = some e) :
    (∃ c, name = c.name ∧ HubError.of (f c).answer = some e) ∨
      ¬Category.IsName name ∧ e = .unknownCategory name := by
  rcases Category.parse_cases name with ⟨c, rfl⟩ | ⟨hnone, hparse⟩
  · rw [inCategory_name] at h
    exact .inl ⟨c, rfl, h⟩
  · rw [inCategory_unknown s hparse] at h
    exact .inr ⟨not_isName_of_parse hnone, (Option.some.inj h).symm⟩

/-- Where nothing is refused in a category, its name is refused. -/
theorem unknown_of_error {α : Type} {name : String} {f : Category → Effect (Except HubError α)}
    {e : HubError} (h : HubError.of (s.inCategory name f).answer = some e)
    (hf : ∀ c, HubError.of (f c).answer = none) :
    ¬Category.IsName name ∧ e = .unknownCategory name := by
  refine (error_inCategory h).resolve_left ?_
  rintro ⟨c, -, herror⟩
  rw [hf c] at herror
  contradiction

/-- A request that is refused has a name that is none. -/
theorem fails_of_error {q : StoreRequest} {e : HubError} (hub : Nat)
    (h : q.error? (s.answer q).answer = some e) : (Request.store hub q).Fails e := by
  have hfirst : ∀ {name}, q.names = [name] →
      ¬Category.IsName name ∧ e = .unknownCategory name → (Request.store hub q).Fails e := by
    rintro name hnames ⟨hname, rfl⟩
    exact .unknown hub (hnames.trans (List.nil_append _).symm) nofun hname
  cases q with
  | importData name | importAll name | getEntry name | getLatest name | clear name | list name =>
    exact hfirst rfl (unknown_of_error h fun _ => rfl)
  | remove name id =>
    refine hfirst rfl (unknown_of_error h fun c => ?_)
    rw [removeEntry_answer]
    rfl
  | requestUse source id target =>
    rcases error_inCategory h with ⟨c, rfl, htarget⟩ | hsource
    · obtain ⟨hname, rfl⟩ := unknown_of_error htarget fun d => by
        rw [requestUse_answer]
        rfl
      have hnames : StoreRequest.names (.requestUse c.name id target) = [c.name] ++ [target] := rfl
      exact .unknown hub hnames (List.forall_mem_singleton.mpr ⟨c, rfl⟩) hname
    · obtain ⟨hname, rfl⟩ := hsource
      have hnames : StoreRequest.names (.requestUse source id target) =
        [] ++ [source, target] := rfl
      exact .unknown hub hnames nofun hname
  | clearAll | listAll | counts | query | restore => contradiction

/-- An export that fails is refused before an id is drawn. -/
theorem exportData_of_fails {hub : Nat} {x : Export} {e : HubError}
    (h : (Request.exportData hub x).Fails e) (id : EntryId) (now : Timestamp) :
    s.exportData x id now = .refused e := by
  cases h with
  | unknownExport hub hunknown => exact exportData_unknown s (parse_of_not_isName hunknown) id now
  | mismatch hub hname hkind =>
    simp only [exportData, hname, Category.parse_name, insert_eq, if_pos hkind]
  | nonFinite hub hname hkind hmem hinfinite =>
    have hfinite : (!x.payload.isFinite) = true := by
      rw [Bool.not_eq_true', ← Bool.not_eq_true, Payload.isFinite_iff]
      exact fun hall => by simp [hall _ hmem] at hinfinite
    simp only [exportData, hname, Category.parse_name, insert_eq, if_neg (not_not.mpr hkind),
      if_pos hfinite]

/-- An export that is refused fails. -/
theorem fails_of_refused {x : Export} {e : HubError} {id : EntryId} {now : Timestamp} (hub : Nat)
    (h : s.exportData x id now = .refused e) : (Request.exportData hub x).Fails e := by
  rcases Category.parse_cases x.category with ⟨c, hc⟩ | ⟨hnone, hparse⟩
  · simp only [exportData, hc, Category.parse_name, insert_eq] at h
    split_ifs at h with hkind hfinite
    · cases h
      exact .mismatch hub hc hkind
    · cases h
      have hall : ¬∀ y ∈ x.payload.numbers, y.isFinite = true := by
        rw [← Payload.isFinite_iff]
        simpa using hfinite
      obtain ⟨y, hy, hinfinite⟩ := not_forall₂.mp hall
      exact .nonFinite hub hc (not_not.mp hkind) hy (by simpa using hinfinite)
  · rw [exportData_unknown s hparse] at h
    cases h
    exact .unknownExport hub (not_isName_of_parse hnone)

/-- An export that finds the numbers used up has drawn an id that is new. -/
theorem exportDrawing_eq_exhausted {x : Export} {ids : Nat → EntryId} {now : Timestamp}
    {patience drawn drawn' : Nat} {s' : Store}
    (h : s.exportDrawing x ids now patience drawn = some (.exhausted s', drawn')) :
    ∃ n, drawn' = drawn + n + 1 ∧ ids (drawn + n) ∉ s.issued ∧ s' = s.issue (ids (drawn + n)) ∧
      s.nextSequence.toNat + 1 = UInt64.size := by
  induction patience generalizing drawn with
  | zero => contradiction
  | succ patience ih =>
    rw [exportDrawing] at h
    cases hresult : s.exportData x (ids drawn) now with
    | redraw =>
      rw [hresult] at h
      obtain ⟨n, rfl, hfresh, hs', hfull⟩ := ih h
      rw [Nat.add_right_comm, Nat.add_assoc] at hfresh hs'
      exact ⟨n + 1, by omega, hfresh, hs', hfull⟩
    | refused e | stored effect => simp [hresult] at h
    | exhausted s'' =>
      rw [hresult] at h
      obtain ⟨rfl, rfl⟩ : s'' = s' ∧ drawn + 1 = drawn' := by simpa using h
      obtain ⟨c, hinsert⟩ := exportData_eq_exhausted hresult
      rw [insert_eq] at hinsert
      split_ifs at hinsert with hkind hfinite hissued hfull
      exact ⟨0, rfl, hissued, (Insertion.exhausted.inj hinsert).symm, hfull⟩

end Store

/-! ## Nothing shows -/

/-- A source from which some ids and times have been drawn already. -/
def Supply.later (supply : Supply) (ids times : Nat) : Supply :=
  ⟨fun k => supply.id (ids + k), fun k => supply.time (times + k)⟩

namespace Comparison

/-- Two runs of the same programs, in which nothing is different but that some hidden ids may
have been issued in one of them. -/
def sameBut (first second : Supply) (hidden : EntryId → Prop) : Comparison where
  first := first
  second := second
  outcomes := Eq
  reports := Eq
  compares _ := true
  hidden := hidden
  same _ := rfl
  empty := rfl
  count := by rintro r r' o o' rfl rfl; rfl
  warning := by rintro o o' id kind rfl; rfl

variable {first second : Supply} {hidden : EntryId → Prop}

theorem eq_of_likens {r : Request} {a a' : r.Answer}
    (h : r.Likens (sameBut first second hidden) a a') : a = a' := by
  cases r with
  | emit =>
    cases h with
    | some hreport => exact congrArg some hreport
    | none => rfl
  | _ => exact h

end Comparison

open Comparison (sameBut eq_of_likens)

section

variable {first second : Supply} {hidden : EntryId → Prop}

theorem Program.alike_self (p : Program σ) : p.Alike (sameBut first second hidden) p := by
  induction p with
  | finish o => exact .finish rfl
  | request r next ih =>
    refine .request r fun a a' ha => ?_
    obtain rfl := eq_of_likens ha
    exact ih a
  | subscribe hub kind handler next ihhandler ih => exact .subscribe hub kind ihhandler ih
  | «recall» next ih => exact .recall ih
  | remember change next ih => exact .remember change ih

theorem Registration.alike_self (r : Registration σ) :
    r.Alike (sameBut first second hidden) r :=
  ⟨rfl, rfl, fun event => (r.handler event).alike_self⟩

theorem alike_registrations (l : List (Registration σ)) :
    List.Forall₂ (Registration.Alike (sameBut first second hidden)) l l :=
  List.forall₂_same.mpr fun r _ => r.alike_self

theorem Hub.alike_self (h : Hub σ) : h.Alike (sameBut first second hidden) h :=
  ⟨rfl, rfl, .refl h.store, rfl, alike_registrations h.registrations⟩

theorem Dispatch.alike_self (d : Dispatch σ) : d.Alike (sameBut first second hidden) d := by
  refine ⟨rfl, rfl, rfl, alike_registrations d.waiting, rfl, ?_⟩
  rintro r r' rfl
  exact (d.next r).alike_self

end

namespace World

variable {w : World σ} {hub : Nat} {h : Hub σ}

theorem setHub_self (hhub : w.hub? hub = some h) : w.setHub hub h = w := by
  obtain ⟨hlt, hget⟩ := List.getElem?_eq_some_iff.mp (hub?_eq_some.mp hhub).1
  rw [setHub, ← hget, List.set_getElem_self]

@[simp] theorem addLog_nil (w : World σ) : w.addLog [] = w := by rw [addLog, List.append_nil]

/-- The world after an export that has found the numbers used up, with the last of some ids that
it has drawn. -/
def afterPanic (supply : Supply) (w : World σ) (hub : Nat) (h : Hub σ) (n : Nat) : World σ :=
  { w.setHub hub { h with store := h.store.issue (supply.id (w.drawnIds + n)) } with
    drawnIds := w.drawnIds + n + 1, drawnTimes := w.drawnTimes + 1 }

/-- If the id is not drawn again, nothing shows that there has been the export. -/
theorem alike_afterPanic {supply : Supply} (hhub : w.hub? hub = some h) {n : Nat}
    (hfresh : ∀ k, supply.id (w.drawnIds + n + 1 + k) ≠ supply.id (w.drawnIds + n)) :
    (w.afterPanic supply hub h n).Alike
      (sameBut supply (supply.later (n + 1) 1) (· = supply.id (w.drawnIds + n))) w := by
  have hissued : h.store.issue (supply.id (w.drawnIds + n)) |>.Alike
      (· = supply.id (w.drawnIds + n)) h.store := by
    refine ⟨rfl, rfl, fun id hid => ?_⟩
    change id ∈ supply.id (w.drawnIds + n) :: h.store.issued ↔ _
    rw [List.mem_cons, or_iff_right hid]
  refine ⟨?_, rfl, rfl, rfl, rfl, rfl, rfl, fun k => ⟨?_, hfresh k⟩, fun k => ?_⟩
  · refine forall₂_set_left (List.forall₂_same.mpr fun g _ => g.alike_self)
      (hub?_eq_some.mp hhub).1 ?_
    exact ⟨rfl, rfl, hissued, rfl, alike_registrations h.registrations⟩
  · change supply.id (n + 1 + (w.drawnIds + k)) = supply.id (w.drawnIds + n + 1 + k)
    exact congrArg supply.id (by omega)
  · change supply.time (1 + (w.drawnTimes + k)) = supply.time (w.drawnTimes + 1 + k)
    exact congrArg supply.time (by omega)

/-- A call that fails gives its error in the world as it was. -/
theorem reply_of_fails {r : Request} {e : HubError} (hhub : w.hub? hub = some h)
    (hcall : r.IsCallOn hub) (hfails : r.Fails e) (supply : Supply) :
    ∃ a, r.error? a = some e ∧ ∀ patience, w.reply supply (patience + 1) r = .done a w := by
  cases hcall with
  | store q =>
    cases hfails with
    | unknown hub hnames hknown hunknown =>
      obtain ⟨a, ha, hanswer⟩ := Store.answer_of_unknown (s := h.store) hnames hknown hunknown
      refine ⟨some a, ha, fun patience => ?_⟩
      rw [reply, withHub_of_hub? hhub, storeReply, hanswer]
      simp only [Store.reply, addLog_nil]
      rw [setHub_self hhub]
      rfl
  | exportData x =>
    refine ⟨some (.error e), rfl, fun patience => ?_⟩
    rw [reply, withHub_of_hub? hhub, exportReply, Store.exportDrawing,
      Store.exportData_of_fails hfails]
    rfl

/-- An error is one with which the call fails. -/
theorem fails_of_gives {r : Request} {e : HubError} (hhub : w.hub? hub = some h)
    (hcall : r.IsCallOn hub) {supply : Supply} {patience : Nat} {a : r.Answer}
    (ha : (w.reply supply patience r).Gives a) (herror : r.error? a = some e) : r.Fails e := by
  cases hcall with
  | store q =>
    rw [reply, withHub_of_hub? hhub] at ha
    cases a with
    | none => contradiction
    | some a =>
      obtain rfl := storeReply_gives ha
      exact Store.fails_of_error hub herror
  | exportData x =>
    rw [reply, withHub_of_hub? hhub] at ha
    unfold exportReply at ha
    split at ha
    · next e' drawn hdraw =>
      obtain rfl : some (.error e') = a := ha
      obtain ⟨id, hexport⟩ := Store.exportDrawing_eq_some hdraw
      obtain rfl := Option.some.inj herror
      exact Store.fails_of_refused hub hexport
    · contradiction
    · split at ha
      · obtain rfl : some (.ok _) = a := ha
        contradiction
      · obtain ⟨report, rfl⟩ := ha
        contradiction
    · contradiction

/-- An export that panics has drawn a new id when the numbers were used up, and that is all. -/
theorem eq_afterPanic {r : Request} (hhub : w.hub? hub = some h) (hcall : r.IsCallOn hub)
    {supply : Supply} {patience : Nat} {message : String} {w' : World σ}
    (hreply : w.reply supply patience r = .panics message w') :
    h.store.nextSequence.toNat + 1 = UInt64.size ∧ ∃ n,
      supply.id (w.drawnIds + n) ∉ h.store.issued ∧ w' = w.afterPanic supply hub h n := by
  cases hcall with
  | store q =>
    rw [reply, withHub_of_hub? hhub] at hreply
    have hof := ofRequest_storeReply w hub h q
    rw [hreply] at hof
    cases hof
  | exportData x =>
    rw [reply, withHub_of_hub? hhub] at hreply
    unfold exportReply at hreply
    split at hreply
    · contradiction
    · next store drawn hdraw =>
      obtain ⟨n, rfl, hfresh, rfl, hfull⟩ := Store.exportDrawing_eq_exhausted hdraw
      obtain ⟨-, rfl⟩ := Reply.panics.inj hreply
      exact ⟨hfull, n, hfresh, rfl⟩
    · split at hreply <;> contradiction
    · contradiction

end World

namespace Machine

variable {w : World σ} {hub : Nat} {h : Hub σ} {r : Request}

/-- A call on a hub fails with the errors that are listed above and with no other. If it does, its
only step is to give the error: the world is the same afterwards, and nothing is dispatched. If it
panics, it is a valid export after the last number, nothing has changed but that an id was drawn
and counts as issued, the program that has made it ends, and whatever is done from then on is
answered as it is without the export, with the ids and times that are drawn later. All this presumes
of an id drawn at random is that it is not met anywhere else: it is not drawn again, and no entry
that is restored has it. -/
theorem failed_call_leaves_no_trace (hhub : w.hub? hub = some h) (hcall : r.IsCallOn hub)
    (supply : Supply) :
    (∀ e, r.Fails e → ∃ a, r.error? a = some e ∧ ∀ next ds t m',
      Step supply ⟨w, .request r next, ds⟩ t m' ↔
        t = [⟨w, r, .done a w⟩] ∧ m' = ⟨w, next a, ds⟩) ∧
    (∀ e patience a, (w.reply supply patience r).Gives a → r.error? a = some e → r.Fails e) ∧
    ∀ patience message w', w.reply supply patience r = .panics message w' →
      (∀ e, ¬r.Fails e) ∧ h.store.nextSequence.toNat + 1 = UInt64.size ∧ ∃ n,
        supply.id (w.drawnIds + n) ∉ h.store.issued ∧ w' = w.afterPanic supply hub h n ∧
        (∀ next ds t m', Step supply ⟨w, .request r next, ds⟩ t m' ↔
          t = [⟨w, r, .panics message w'⟩] ∧
            m' = ⟨w', .finish (.panicked (some message)), ds⟩) ∧
        ((∀ k, supply.id (w.drawnIds + n + 1 + k) ≠ supply.id (w.drawnIds + n)) →
          ∀ p ds, Matches
            (sameBut supply (supply.later (n + 1) 1) (· = supply.id (w.drawnIds + n)))
            ⟨w', p, ds⟩ ⟨w, p, ds⟩) := by
  refine ⟨fun e hfails => ?_, fun e patience a ha => World.fails_of_gives hhub hcall ha,
    fun patience message w' hreply => ⟨fun e hfails => ?_, ?_⟩⟩
  · obtain ⟨a, ha, hreply⟩ := World.reply_of_fails hhub hcall hfails supply
    refine ⟨a, ha, fun next ds t m' => ⟨fun hstep => ?_, ?_⟩⟩
    · exact hstep.unique (.answered 1 (hreply 0))
    · rintro ⟨rfl, rfl⟩
      exact .answered 1 (hreply 0)
  · obtain ⟨a, -, hdone⟩ := World.reply_of_fails hhub hcall hfails supply
    exact absurd (World.reply_unique hreply (hdone 0) nofun nofun) nofun
  · obtain ⟨hfull, n, hnew, hw'⟩ := World.eq_afterPanic hhub hcall hreply
    refine ⟨hfull, n, hnew, hw', fun next ds t m' => ⟨fun hstep => ?_, ?_⟩, fun hfresh p ds => ?_⟩
    · exact hstep.unique (.panicked patience hreply)
    · rintro ⟨rfl, rfl⟩
      exact .panicked patience hreply
    · rw [hw']
      refine Alike.matches ⟨World.alike_afterPanic hhub hfresh, p.alike_self, ?_⟩
      exact List.forall₂_same.mpr fun d _ => d.alike_self

/-- A source that never gives an id twice. -/
def countingSupply : Supply where
  id k := ⟨String.ofList (List.replicate k 'a')⟩
  time _ := .noon

theorem countingSupply_ne {n m : Nat} (h : n ≠ m) : countingSupply.id n ≠ countingSupply.id m := by
  intro heq
  have hlists := String.ofList_injective (congrArg EntryId.text heq)
  exact h (by simpa using congrArg List.length hlists)

open World (worldWithNumber hubWithNumber numberedEntry squareExport)

/-- In a hub into which an entry with the greatest number of all has been restored, an export
panics without a trace. -/
theorem failed_call_leaves_no_trace_lastNumber : ∃ w' n,
    (worldWithNumber 18446744073709551615).reply countingSupply 1
        (.exportData 0 squareExport) = .panics Store.overflowMessage w' ∧
      w' = (worldWithNumber 18446744073709551615).afterPanic countingSupply 0
        (hubWithNumber 18446744073709551615) n ∧
      ∀ p ds, Matches (sameBut countingSupply (countingSupply.later (n + 1) 1)
          (· = countingSupply.id (0 + n)))
        ⟨w', p, ds⟩ ⟨worldWithNumber 18446744073709551615, p, ds⟩ := by
  have hhub : (worldWithNumber 18446744073709551615).hub? 0 =
      some (hubWithNumber 18446744073709551615) := rfl
  obtain ⟨w', hreply⟩ : ∃ w', (worldWithNumber 18446744073709551615).reply countingSupply 1
      (.exportData 0 squareExport) = .panics Store.overflowMessage w' := ⟨_, rfl⟩
  obtain ⟨-, -, hpanics⟩ := failed_call_leaves_no_trace hhub (.exportData squareExport)
    countingSupply
  obtain ⟨-, -, n, -, hw', -, hlater⟩ := hpanics 1 _ w' hreply
  exact ⟨w', n, hreply, hw', hlater fun k => countingSupply_ne (by omega)⟩

/-- Removes the entry that `worldWithNumber` holds. -/
def removeSquare : Program Unit :=
  .request (.store 0 (.remove "functions" ⟨"b"⟩)) fun _ => .finish .succeeded

/-- Clears a category while a handler is subscribed to that. -/
def clearHeardBy (handler : Program Unit) : Program Unit :=
  .subscribe 0 .entriesCleared (fun _ => handler) fun _ =>
    .request (.store 0 (.clear "matrices")) fun _ => .finish .succeeded

/-- Without what is presumed of them, an export that panics does show. The id that it has drawn
counts as issued, so that an entry with this id is not restored any more. And it ends the handler
by which it is made, so that what the handler does next without the export is left undone. -/
theorem panic_leaves_traces :
    (∃ w', (worldWithNumber 18446744073709551615).reply countingSupply 1
        (.exportData 0 squareExport) = .panics Store.overflowMessage w' ∧
      let request : Request := .store 0 (.restore
        ⟨1, .noon, [{ numberedEntry 0 with id := countingSupply.id 0 }]⟩)
      (w'.reply countingSupply 1 request).Gives (some (0 : Nat)) ∧
      ((worldWithNumber 18446744073709551615).reply countingSupply 1 request).Gives
        (some (1 : Nat))) ∧
    ∃ w₁ w₂, World.run countingSupply 5
        (clearHeardBy (.request (.exportData 0 squareExport) fun _ => removeSquare))
        (worldWithNumber 18446744073709551615) = some (.succeeded, w₁) ∧
      World.run countingSupply 5 (clearHeardBy removeSquare)
        (worldWithNumber 18446744073709551615) = some (.succeeded, w₂) ∧
      let request : Request := .store 0 (.getEntry "functions" ⟨"b"⟩)
      (w₁.reply countingSupply 1 request).Gives
        (some (.ok (some (numberedEntry 18446744073709551615)))) ∧
      (w₂.reply countingSupply 1 request).Gives (some (.ok none)) := by
  refine ⟨⟨_, rfl, ?_, ?_⟩, _, _, rfl, rfl, ?_, ?_⟩
  · rfl
  · rfl
  · rfl
  · rfl

end Machine
end LabExchange
