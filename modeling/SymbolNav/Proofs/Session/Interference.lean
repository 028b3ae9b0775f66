/-
  SymbolNav/Proofs/Session/Interference.lean
  ==========================================
  **Lookups and interactive work do not get in each other's way.**

  Whatever operations are on their way at the same time: without the lookups, the
  interactive ones do the same; and a lookup does the same when it is alone
  (`no_interference`).  Only the command that a notice of an error quotes may be
  another one.
-/
import Mathlib.Data.List.Induction
import SymbolNav.Proofs.Session.Lookups

namespace SymbolNav

/-! ### What has been kept -/

section Marks

variable {α β : Type} {R : α → β → Prop} {p : α → Bool} {l : List α} {a : α} {places : List Nat}

/-- The places, in order, of the elements that have a property. -/
structure Marks (p : α → Bool) (l : List α) (places : List Nat) : Prop where
  ordered : places.Pairwise (· < ·)
  taken : ∀ i, i ∈ places ↔ ∃ a, l[i]? = some a ∧ p a = true

theorem Marks.lt_length (h : Marks p l places) {i : Nat} (member : i ∈ places) : i < l.length := by
  rcases (h.taken i).mp member with ⟨a, place, -⟩
  exact (List.getElem?_eq_some_iff.mp place).1

theorem Marks.taken_append (h : Marks p (l ++ [a]) places) (i : Nat) :
    i ∈ places ↔ (∃ x, l[i]? = some x ∧ p x = true) ∨ i = l.length ∧ p a = true := by
  rw [h.taken i]
  rcases Nat.lt_trichotomy i l.length with earlier | rfl | beyond
  · rw [List.getElem?_append_left earlier]
    simp [Nat.ne_of_lt earlier]
  · simp
  · rw [List.getElem?_eq_none (by simpa using Nat.succ_le_of_lt beyond),
      List.getElem?_eq_none (Nat.le_of_lt beyond)]
    simp [Nat.ne_of_gt beyond]

theorem Marks.of_append_left_out (h : Marks p (l ++ [a]) places) (passes : p a = false) :
    Marks p l places := by
  refine ⟨h.ordered, fun i => ?_⟩
  rw [h.taken_append, passes]
  simp

theorem Marks.of_append (h : Marks p (l ++ [a]) places) (takes : p a = true) :
    ∃ earlier, places = earlier ++ [l.length] ∧ Marks p l earlier := by
  have member : l.length ∈ places := (h.taken_append _).mpr (.inr ⟨rfl, takes⟩)
  rcases List.eq_nil_or_concat' places with rfl | ⟨earlier, last, rfl⟩
  · cases member
  · have ordered := List.pairwise_append.mp h.ordered
    have before : ∀ i ∈ earlier, i < last := fun i inside => ordered.2.2 i inside last (by simp)
    have bound := h.lt_length (List.mem_append_right earlier (List.mem_singleton_self last))
    have is_last : last = l.length := by
      rw [List.length_append, List.length_singleton] at bound
      rcases List.mem_append.mp member with inside | own
      · have := before _ inside
        omega
      · exact (List.mem_singleton.mp own).symm
    subst is_last
    refine ⟨earlier, rfl, ordered.1, fun i => ?_⟩
    have cases := h.taken_append i
    rw [List.mem_append, List.mem_singleton] at cases
    constructor
    · intro inside
      exact (cases.mp (.inl inside)).resolve_right (fun own => Nat.ne_of_lt (before i inside) own.1)
    · rintro ⟨x, place, px⟩
      have within := (List.getElem?_eq_some_iff.mp place).1
      exact (cases.mpr (.inl ⟨x, place, px⟩)).resolve_right (Nat.ne_of_lt within)

/-- What is related place by place to the elements that have a property is related to what is left
when the others are dropped. -/
theorem Marks.forall₂_filter (h : Marks p l places) {l' : List β}
    (length : l'.length = places.length)
    (related : ∀ n i : Nat, places[n]? = some i →
      ∃ (a : α) (b : β), l[i]? = some a ∧ l'[n]? = some b ∧ R a b) :
    List.Forall₂ R (l.filter p) l' := by
  induction l using List.reverseRecOn generalizing l' places with
  | nil =>
    obtain rfl : places = [] :=
      List.eq_nil_iff_forall_not_mem.mpr (fun i member => Nat.not_lt_zero i (h.lt_length member))
    rw [List.length_eq_zero_iff.mp length]
    exact .nil
  | append_singleton l a ih =>
    -- what is related at an earlier place is so without the last element
    have before {i : Nat} (earlier : i < l.length) {x : α} (place : (l ++ [a])[i]? = some x) :
        l[i]? = some x := by
      rwa [List.getElem?_append_left earlier] at place
    rw [List.filter_append]
    cases last : p a with
    | false =>
      have marks := h.of_append_left_out last
      have rest : List.Forall₂ R (l.filter p) l' := by
        refine ih marks length ?_
        intro n i place
        rcases related n i place with ⟨x, y, there, there', same⟩
        exact ⟨x, y, before (marks.lt_length (List.mem_of_getElem? place)) there, there', same⟩
      simpa [last] using rest
    | true =>
      rcases h.of_append last with ⟨earlier, rfl, marks⟩
      rcases List.eq_nil_or_concat' l' with rfl | ⟨l', b, rfl⟩
      · simp at length
      · have length : l'.length = earlier.length := by simpa using length
        have rest : List.Forall₂ R (l.filter p) l' := by
          refine ih marks length ?_
          intro n i place
          have within := (List.getElem?_eq_some_iff.mp place).1
          rcases related n i (by rw [List.getElem?_append_left within, place]) with
            ⟨x, y, there, there', same⟩
          rw [List.getElem?_append_left (by omega)] at there'
          exact ⟨x, y, before (marks.lt_length (List.mem_of_getElem? place)) there, there', same⟩
        rcases related earlier.length l.length (by simp) with ⟨x, y, there, there', same⟩
        obtain rfl : a = x := by simpa using there
        obtain rfl : b = y := by simpa [← length] using there'
        refine List.rel_append rest ?_
        simpa [last] using same

end Marks

/-- Only the interactive operations are kept. -/
def Selection.direct : Selection := ⟨true, fun _ => false⟩

def Selection.only (i : Nat) : Selection := ⟨false, fun j => j == i⟩

/-- What happens to `o` without what is left out. -/
def Ongoing.reduced (o : Ongoing) (sel : Selection) (happenings : List Happening) :
    List Happening :=
  o.restrict sel ⟨[], []⟩ happenings

theorem Kept.isWork_image? {k : Kept} {sel : Selection} {o : Ongoing} {x x' : Happening}
    (work : x.IsWork) (image : k.image? sel o x = some x') : x'.IsWork := by
  cases x with
  | begin view request =>
    simp only [Kept.image?, Option.ite_none_right_eq_some, Option.some.injEq] at image
    rw [← image.2]
    exact work
  | resume i view reply =>
    simp only [Kept.image?, Option.ite_none_right_eq_some, Option.some.injEq] at image
    rw [← image.2]
    trivial
  | engine a =>
    cases a with
    | step g step =>
      simp only [Kept.image?, Option.ite_none_right_eq_some, Option.some.injEq] at image
      rw [← image.2]
      trivial
    | start | startComplete | startBuild | setConfig | changeHost => exact work.elim

theorem Ongoing.isWork_restrict {sel : Selection} {happenings : List Happening}
    (work : ∀ x ∈ happenings, x.IsWork) (k : Kept) (o : Ongoing) :
    ∀ x ∈ o.restrict sel k happenings, x.IsWork := by
  induction happenings generalizing k o with
  | nil => exact List.forall_mem_nil _
  | cons x happenings ih =>
    have later : ∀ y ∈ happenings, y.IsWork := fun y member => work y (List.mem_cons_of_mem x member)
    unfold Ongoing.restrict
    split
    case h_1 => exact List.forall_mem_nil _
    case h_2 o₁ acts =>
      split
      case h_1 x' image =>
        exact List.forall_mem_cons.mpr
          ⟨Kept.isWork_image? (work x List.mem_cons_self) image, ih later _ o₁⟩
      case h_2 => exact ih later k o₁

section Shadows

variable {sel : Selection} {host : Host} {k : Kept} {o o' : Ongoing}

theorem Shadows.at_place (h : Shadows sel host k o o') {n i : Nat} (place : k.places[n]? = some i) :
    ∃ op op', o.operations[i]? = some op ∧ o'.operations[n]? = some op' ∧
      op.Alike k.numbers op' := by
  rcases List.getElem?_eq_some_iff.mp place with ⟨within, rfl⟩
  rcases h.operations _ (List.getElem_mem within) with ⟨op, op', there, there', same⟩
  have distinct : k.places.Nodup := h.ordered.imp Nat.ne_of_lt
  rw [distinct.idxOf_getElem n within] at there'
  exact ⟨op, op', there, there', same⟩

/-- Without the lookups, the interactive operations are what is left. -/
theorem Shadows.direct (h : Shadows .direct host k o o') :
    List.Forall₂ (Operation.Alike k.numbers) (o.operations.filter (fun op => !op.request.isLook))
      o'.operations := by
  refine Marks.forall₂_filter ⟨h.ordered, fun i => ?_⟩ h.length (fun n i => h.at_place)
  rw [h.places i]
  have takes (op : Operation) : Selection.direct.takes i op.request = !op.request.isLook := by
    cases look : op.request.isLook <;> simp [Selection.takes, Selection.direct, look]
  simp only [Selection.Takes, takes]

theorem Shadows.only {i : Nat} (h : Shadows (.only i) host k o o') {op : Operation}
    (place : o.operations[i]? = some op) (look : op.request.isLook = true) :
    ∃ op', o'.operations = [op'] ∧ op.Alike k.numbers op' := by
  have takes (j : Nat) : j ∈ k.places ↔ j = i := by
    rw [h.places j]
    constructor
    · rintro ⟨x, -, takes⟩
      unfold Selection.takes at takes
      split at takes
      case isTrue => exact of_decide_eq_true takes
      case isFalse => cases takes
    · rintro rfl
      exact ⟨op, place, by simp [Selection.takes, Selection.only, look]⟩
  have distinct : k.places.Nodup := h.ordered.imp Nat.ne_of_lt
  have places : k.places = [i] := by
    apply List.perm_singleton.mp
    apply (List.perm_ext_iff_of_nodup distinct (by simp)).mpr
    simpa using takes
  have length := h.length
  rw [places] at length
  rcases List.length_eq_one_iff.mp length with ⟨op', all⟩
  rcases h.at_place (n := 0) (by rw [places]; rfl) with ⟨x, x', there, there', same⟩
  obtain rfl : x = op := Option.some.inj (there.symm.trans place)
  rw [all] at there'
  cases Option.some.inj there'
  exact ⟨op', all, same⟩

end Shadows

/-! ### No interference -/

/-- The output of some run could not be read to its end. -/
def BreaksOff (happenings : List Happening) : Prop :=
  ∃ g message, .engine (.step g (.breakOff message)) ∈ happenings

/-- What the happenings have led to does not depend on which other operations there were. -/
structure NoInterference (host : Host) (config : Config) (root : Path)
    (happenings : List Happening) (o : Ongoing) : Prop where
  /-- Without the lookups, the interactive operations do the same, and leave the same behind. -/
  direct : ∃ numbers o', (Ongoing.new root (.new host config)).play?
      ((Ongoing.new root (.new host config)).reduced .direct happenings) = some o' ∧
    List.Forall₂ (Operation.Alike numbers) (o.operations.filter (fun op => !op.request.isLook))
      o'.operations ∧ SameUse o.session o'.session
  /-- A lookup does the same when nothing else is there. -/
  alone : ∀ (i : Nat) op, o.operations[i]? = some op → op.request.isLook = true →
    ∃ numbers o' op', (Ongoing.new root (.new host config)).play?
        ((Ongoing.new root (.new host config)).reduced (.only i) happenings) = some o' ∧
      o'.operations = [op'] ∧ op.Alike numbers op'
  /-- It returns all that the indexer's report resolves to, sorted, or nothing if that fails. -/
  answers : ∀ i what word answer, o.Answers i what word answer →
    LookupAnswer host config root
      (BreaksOff ((Ongoing.new root (.new host config)).reduced (.only i) happenings))
      what word answer
  /-- It can be brought there at every moment. -/
  returns : ∀ (i : Nat) op what word view, o.operations[i]? = some op →
    op.request = .look what word → ∃ rest o₁ answer, (∀ x ∈ rest, x.Furthers i view) ∧
      o.play? rest = some o₁ ∧ o₁.Answers i what word answer
  /-- Whenever and among whatever else the same is looked up, the answer is the same, as long as the
  report can be read and different items are at different places. -/
  sole : ∀ happenings' o', (∀ x ∈ happenings', x.IsWork) →
    (Ongoing.new root (.new host config)).play? happenings' = some o' →
    ∀ i i' what word answer answer', o.Answers i what word answer →
      o'.Answers i' what word answer' →
      ¬ BreaksOff ((Ongoing.new root (.new host config)).reduced (.only i) happenings) →
      ¬ BreaksOff ((Ongoing.new root (.new host config)).reduced (.only i') happenings') →
      (∀ response machine,
        host.launch config.indexer (config.argsFor (what.spec word)) root =
          .ok (response, machine) →
        Item.Apart ((what.spec word).itemsOf host.reader root (Hit.ofLines response.lines))) →
      answer = answer'

section NoInterference

variable {host : Host} {config : Config} {root : Path} {happenings : List Happening} {o : Ongoing}

theorem exists_alone (steady : host.Steady) (work : ∀ x ∈ happenings, x.IsWork)
    (plays : (Ongoing.new root (.new host config)).play? happenings = some o) {i : Nat}
    {op : Operation} (place : o.operations[i]? = some op) (look : op.request.isLook = true) :
    ∃ numbers o' op', (Ongoing.new root (.new host config)).play?
        ((Ongoing.new root (.new host config)).reduced (.only i) happenings) = some o' ∧
      o'.operations = [op'] ∧ op.Alike numbers op' := by
  rcases (shadows_new (.only i) host config root).play steady (Ongoing.fits_new _ _) work plays with
    ⟨k, o', plays', follows⟩
  rcases follows.only place look with ⟨op', all, same⟩
  exact ⟨k.numbers, o', op', plays', all, same⟩

theorem lookupAnswer_of_answers (steady : host.Steady) (work : ∀ x ∈ happenings, x.IsWork)
    (plays : (Ongoing.new root (.new host config)).play? happenings = some o) {i : Nat}
    {what : Lookup} {word : String} {answer : Answer} (answers : o.Answers i what word answer) :
    LookupAnswer host config root
      (BreaksOff ((Ongoing.new root (.new host config)).reduced (.only i) happenings))
      what word answer := by
  rcases answers with ⟨op, place, look, returned⟩
  rcases exists_alone steady work plays place (by rw [look]; rfl) with
    ⟨numbers, o', op', plays', all, same⟩
  have looks : Looks host config root
      (BreaksOff ((Ongoing.new root (.new host config)).reduced (.only i) happenings)) o' :=
    looks_new.play steady (Ongoing.isWork_restrict work _ _)
      (fun g message member => ⟨g, message, member⟩) plays'
  have state := looks.states op' (by simp [all]) what word (same.request.trans look)
  have progress := same.progress
  rw [returned] at progress
  generalize op'.progress = progress' at progress state
  cases progress
  cases state with
  | returned answer => exact answer

/-- **Lookups and interactive operations do not interfere**, however they are interleaved. -/
theorem no_interference (steady : host.Steady) (work : ∀ x ∈ happenings, x.IsWork)
    (plays : (Ongoing.new root (.new host config)).play? happenings = some o) :
    NoInterference host config root happenings o := by
  constructor
  case direct =>
    rcases (shadows_new .direct host config root).play steady (Ongoing.fits_new _ _) work plays with
      ⟨k, o', plays', follows⟩
    exact ⟨k.numbers, o', plays', follows.direct, follows.session.use rfl⟩
  case alone => exact fun i op place look => exists_alone steady work plays place look
  case answers => exact fun i what word answer => lookupAnswer_of_answers steady work plays
  case returns =>
    intro i op what word view place look
    have looks : Looks host config root True o :=
      looks_new.play steady work (fun _ _ _ => trivial) plays
    exact looks.exists_answer steady view place look
  case sole =>
    intro happenings' o' work' plays' i i' what word answer answer' here there whole whole' apart
    exact (lookupAnswer_of_answers steady work plays here).unique
      (lookupAnswer_of_answers steady work' plays' there) whole whole' apart

end NoInterference

namespace Engine.Sample

/-- References are looked up while an interactive question is on its way. -/
def aside : List Happening :=
  [.begin default (.run question), .begin default (.look .references "f")] ++
    (toTheEnd 1 ++ toTheEnd 2).map .engine ++
    [.resume 1 default .settled, .resume 0 default .settled]

def answered (o : Ongoing) : Bool :=
  match (o.operations[1]? : Option Operation) with
  | some ⟨.look .references "f", _, _, .returned (.items [_])⟩ => true
  | _ => false

end Engine.Sample

open Engine.Sample in
/-- Both the question and the lookup have their results. -/
theorem no_interference_aside :
    ∃ o item, (Ongoing.new root engine).play? aside = some o ∧
      o.Answers 1 .references "f" (.items [item]) ∧
      NoInterference machine settings root aside o := by
  have ends : (((Ongoing.new root engine).play? aside).filter answered).isSome := by
    decide +kernel
  rcases Option.isSome_iff_exists.mp ends with ⟨o, seen⟩
  rcases Option.filter_eq_some_iff.mp seen with ⟨plays, answered⟩
  have steady : machine.Steady := Host.steady_of_quiet (fun _ _ => rfl)
  have work : ∀ x ∈ aside, x.IsWork := by
    simp [aside, toTheEnd, Happening.IsWork, Request.isLook, Request.isInteractive]
  unfold Engine.Sample.answered at answered
  split at answered
  case h_1 asked effects item place =>
    exact ⟨o, item, plays, ⟨_, place, rfl, rfl⟩, no_interference steady work plays⟩
  case h_2 => cases answered

end SymbolNav
