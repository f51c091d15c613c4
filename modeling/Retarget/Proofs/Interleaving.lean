import Retarget.Proofs.Balance

/-!
# Visits in any order

Passes can be taken over single items in any order, and over an item more than once. A visit of one
item does not matter to another, and to an item only the first visit of each pass does: the mark
that it leaves stays, whoever comes next, and makes the pass leave the item alone from then on. So
all that counts is, for each item, in which order the passes first come to it.

Results:
1. `itemAfter_eraseDups`: repeated visits of an item are idle, also with other passes in between.
2. `program_afterVisits`: an item sees the visits that take it in, and no other.
3. `afterVisits_order`: visits that agree on the first ones for each item leave one and the same
   session behind; visiting each item, in any order, is visiting the whole program.
-/

namespace Retarget

/-! ## Definitions -/

/-- The places of the items in a scope, one after the other, of a body of the given size. -/
def Scope.places (size : Nat) : Scope → List Nat
  | program => List.range size
  | root => List.range size
  | item index => [index]

/-- The visits of single items that visits stand for, each with the number of its pass and the place
of the item. -/
def itemVisits (size : Nat) (visits : List (Nat × Scope)) : List (Nat × Nat) :=
  visits.flatMap fun visit => (visit.2.places size).map fun place => (visit.1, place)

/-- The passes that visit an item, in the order of their first visits. -/
def firstVisits (visits : List (Nat × Nat)) (place : Nat) : List Nat :=
  ((visits.filter fun visit => visit.2 = place).map Prod.fst).eraseDups

/-- An item after a visit by the pass with a number; there may be no such pass. -/
def visitBy (known : List Settings) (item : Node) (number : Nat) : Node :=
  match known[number]? with
  | none => item
  | some settings => item.amend (settings.verdict number)

/-- An item after visits one after the other. -/
def itemAfter (known : List Settings) (numbers : List Nat) (item : Node) : Node :=
  numbers.foldl (visitBy known) item

/-- A pass has nothing left to do on an item. -/
def Done (known : List Settings) (number : Nat) (item : Node) : Prop :=
  number < known.length → item.Marked number

/-- The passes that visit an item, one for each visit. -/
def numbersAt (visits : List (Nat × Scope)) (place : Nat) : List Nat :=
  (visits.filter fun visit => visit.2.covers place).map Prod.fst

/-! ## 1. Visits of one item -/

section Item

variable {known : List Settings} {item : Node} {number other : Nat}

theorem visitBy_of_lt (h : number < known.length) :
    visitBy known item number = item.amend (known[number].verdict number) := by
  rw [visitBy, List.getElem?_eq_getElem h]

theorem visitBy_of_not_lt (h : ¬ number < known.length) : visitBy known item number = item := by
  rw [visitBy, List.getElem?_eq_none (Nat.le_of_not_lt h)]

theorem visitBy_of_done (h : Done known number item) : visitBy known item number = item := by
  by_cases hlt : number < known.length
  · rw [visitBy_of_lt hlt, Tree.amend_of_marked (h hlt)]
  · exact visitBy_of_not_lt hlt

theorem done_visitBy_self : Done known number (visitBy known item number) := by
  intro hlt
  rw [visitBy_of_lt hlt]
  exact Tree.marked_amend_self _ number item

theorem done_visitBy (h : Done known other item) :
    Done known other (visitBy known item number) := by
  intro hother
  by_cases hlt : number < known.length
  · rw [visitBy_of_lt hlt]
    exact Tree.marked_amend (h hother)
  · rw [visitBy_of_not_lt hlt]
    exact h hother

/-- The visits of a pass that has nothing left to do can be left out, whoever visits in between. -/
theorem itemAfter_filter (numbers : List Nat) (h : Done known number item) :
    itemAfter known (numbers.filter fun n => !n == number) item = itemAfter known numbers item := by
  induction numbers generalizing item with
  | nil => rfl
  | cons first rest ih =>
    by_cases heq : first = number
    · subst heq
      rw [List.filter_cons_of_neg (by simp)]
      show _ = itemAfter known rest (visitBy known item first)
      rw [visitBy_of_done h]
      exact ih h
    · rw [List.filter_cons_of_pos (by simp [heq])]
      -- Another pass comes first, and leaves the mark that says that this one is done.
      exact ih (done_visitBy h)

/-- Only the first visit of each pass matters to an item. -/
theorem itemAfter_eraseDups (numbers : List Nat) (item : Node) :
    itemAfter known numbers.eraseDups item = itemAfter known numbers item := by
  cases numbers with
  | nil => rfl
  | cons first rest =>
    rw [List.eraseDups_cons]
    show itemAfter known _ (visitBy known item first) =
      itemAfter known rest (visitBy known item first)
    rw [itemAfter_eraseDups, itemAfter_filter rest done_visitBy_self]
termination_by numbers.length
decreasing_by exact Nat.lt_succ_of_le (List.length_filter_le _ _)

end Item

/-! ## 2. Visits of many items -/

namespace Session

/-- A visit changes the items in its scope, and nothing else of the program. -/
theorem program_visit (session : Session) (number : Nat) (scope : Scope) :
    ∃ body, (session.visit number scope).1.program = { session.program with body } ∧
      ∀ place : Nat, body[place]? = session.program.body[place]?.map fun item =>
        if scope.covers place then visitBy session.settings item number else item := by
  have hknown : session.settings[number]? = session.passes[number]?.map Pass.settings :=
    List.getElem?_map
  cases h : session.passes[number]? with
  | none =>
    refine ⟨session.program.body, by rw [visit_of_none h], ?_⟩
    intro place
    simp only [visitBy, hknown, h, Option.map_none, ite_self, Option.map_id']
  | some pass =>
    refine ⟨_, by rw [visit_of_some h], ?_⟩
    intro place
    rw [Scope.getElem?_amend]
    cases scope.covers place with
    | false => exact Option.map_id'.symm
    | true => simp only [visitBy, hknown, h, Option.map_some, if_true]

/-- An item sees the visits that take it in, and no other. -/
theorem program_afterVisits (session : Session) (visits : List (Nat × Scope)) :
    ∃ body, (session.afterVisits visits).program = { session.program with body } ∧
      ∀ place : Nat, body[place]? = session.program.body[place]?.map
        (itemAfter session.settings (numbersAt visits place)) := by
  induction visits generalizing session with
  | nil => exact ⟨_, rfl, fun place => Option.map_id'.symm⟩
  | cons first rest ih =>
    obtain ⟨middle, hmiddle, hfirst⟩ := program_visit session first.1 first.2
    obtain ⟨body, hbody, hrest⟩ := ih (session.visit first.1 first.2).1
    refine ⟨body, ?_, ?_⟩
    · exact hbody.trans (by rw [hmiddle])
    · intro place
      rw [hrest, settings_visit, hmiddle, hfirst, Option.map_map]
      simp only [numbersAt, List.filter_cons]
      cases first.2.covers place <;> rfl

/-! ## 3. The order of visits -/

theorem filter_places (scope : Scope) {size place : Nat} (h : place < size) :
    ((scope.places size).filter fun other => other = place) =
      if scope.covers place then [place] else [] := by
  have hrange : ((List.range size).filter fun other => other = place) = [place] := by
    rw [List.filter_eq, List.count_range, if_pos h]
    rfl
  cases scope with
  | program => exact hrange
  | root => exact hrange
  | item index =>
    rw [Scope.places, Scope.covers, List.filter_cons, List.filter_nil]
    by_cases hplace : index = place
    · rw [if_pos (decide_eq_true hplace), if_pos (decide_eq_true hplace.symm), hplace]
    · rw [decide_eq_false hplace, decide_eq_false (Ne.symm hplace)]
      rfl

theorem firstVisits_itemVisits (visits : List (Nat × Scope)) {size place : Nat}
    (h : place < size) :
    firstVisits (itemVisits size visits) place = (numbersAt visits place).eraseDups := by
  rw [firstVisits]
  congr 1
  induction visits with
  | nil => rfl
  | cons first rest ih =>
    have hfirst : (((first.2.places size).map fun place => (first.1, place)).filter
        fun visit => visit.2 = place).map Prod.fst =
          if first.2.covers place then [first.1] else [] := by
      rw [List.filter_map, List.map_map]
      show ((first.2.places size).filter fun other => other = place).map _ = _
      rw [filter_places first.2 h]
      cases first.2.covers place <;> rfl
    rw [itemVisits, List.flatMap_cons, List.filter_append, List.map_append, hfirst]
    show _ ++ ((itemVisits size rest).filter _).map Prod.fst = _
    rw [ih, numbersAt, numbersAt, List.filter_cons]
    cases first.2.covers place <;> rfl

/-- Visits that come to each item in the same order, repeated visits apart, leave the same session
behind. -/
theorem afterVisits_congr {session : Session} {visits others : List (Nat × Scope)}
    (h : ∀ place < session.program.body.length,
      (numbersAt visits place).eraseDups = (numbersAt others place).eraseDups) :
    session.afterVisits visits = session.afterVisits others := by
  -- The counts follow from the marks, so it is enough to compare the programs item by item.
  refine (Balanced.visits session visits).eq (Balanced.visits session others) ?_
  obtain ⟨left, hleft, hvisits⟩ := program_afterVisits session visits
  obtain ⟨right, hright, hothers⟩ := program_afterVisits session others
  suffices hbody : left = right by rw [hleft, hright, hbody]
  apply List.ext_getElem?
  intro place
  rw [hvisits, hothers]
  by_cases hplace : place < session.program.body.length
  · rw [List.getElem?_eq_getElem hplace, Option.map_some, Option.map_some,
      ← itemAfter_eraseDups, h place hplace, itemAfter_eraseDups]
  · rw [List.getElem?_eq_none (Nat.le_of_not_lt hplace)]
    rfl

theorem eraseDups_numbersAt {visits : List (Nat × Scope)} {number place : Nat}
    (h : ∃ visit ∈ visits, visit.2.covers place)
    (hall : ∀ visit ∈ visits, visit.1 = number) :
    (numbersAt visits place).eraseDups = [number] := by
  have hnumber : ∀ n ∈ numbersAt visits place, n = number := by
    intro n hn
    obtain ⟨visit, hvisit, rfl⟩ := List.mem_map.mp hn
    exact hall visit (List.mem_filter.mp hvisit).1
  obtain ⟨visit, hvisit, hcovers⟩ := h
  have hmem : visit.1 ∈ numbersAt visits place :=
    List.mem_map_of_mem (List.mem_filter.mpr ⟨hvisit, hcovers⟩)
  cases hlist : numbersAt visits place with
  | nil => exact absurd (hlist ▸ hmem) List.not_mem_nil
  | cons first rest =>
    rw [hlist] at hnumber
    obtain ⟨rfl, hrest⟩ := List.forall_mem_cons.mp hnumber
    have hfilter : (rest.filter fun n => !n == first) = [] :=
      List.filter_eq_nil_iff.mpr fun n hn => by simp [hrest n hn]
    rw [List.eraseDups_cons, hfilter]
    rfl

/-- Sequences of visits, of single items or of all, that come to each item with the same order of
first visits leave the same session behind: the program with its marks, and the count of each pass.
How the visits of different items are interleaved and how often a visit is repeated does not matter;
so a pass that goes over the items one by one in any order does what a pass over the program does.
-/
theorem afterVisits_order (session : Session) :
    (∀ visits others : List (Nat × Scope),
      (∀ place < session.program.body.length,
        firstVisits (itemVisits session.program.body.length visits) place =
          firstVisits (itemVisits session.program.body.length others) place) →
      session.afterVisits visits = session.afterVisits others) ∧
    ∀ (number : Nat) (scope : Scope) (places : List Nat),
      scope = .program ∨ scope = .root →
      (∀ place < session.program.body.length, place ∈ places) →
      session.afterVisits (places.map fun place => (number, .item place)) =
        session.afterVisits [(number, scope)] := by
  constructor
  · intro visits others h
    apply afterVisits_congr
    intro place hplace
    rw [← firstVisits_itemVisits visits hplace, ← firstVisits_itemVisits others hplace]
    exact h place hplace
  · intro number scope places hscope hplaces
    apply afterVisits_congr
    intro place hplace
    have hitems : (numbersAt (places.map fun index => (number, .item index)) place).eraseDups =
        [number] := by
      refine eraseDups_numbersAt ⟨(number, .item place), ?_, decide_eq_true rfl⟩ ?_
      · exact List.mem_map_of_mem (hplaces place hplace)
      · exact List.forall_mem_map.mpr fun _ _ => rfl
    have hscopes : (numbersAt [(number, scope)] place).eraseDups = [number] := by
      rcases hscope with rfl | rfl <;> rfl
    rw [hitems, hscopes]

theorem small_afterVisits_order :
    let visits := [(0, .item 0), (1, .item 1), (1, .item 0), (0, .root)]
    let others := [(1, .item 1), (0, .program), (1, .item 1), (1, .item 0)]
    (∀ place < Session.small.program.body.length,
      firstVisits (itemVisits Session.small.program.body.length visits) place =
        firstVisits (itemVisits Session.small.program.body.length others) place) ∧
    Session.small.afterVisits visits = Session.small.afterVisits others ∧
    (∀ place < Session.small.program.body.length, place ∈ [1, 0, 1]) ∧
    Session.small.afterVisits ([1, 0, 1].map fun place => (0, .item place)) =
      Session.small.afterVisits [(0, .root)] := by
  intro visits others
  have hfirst : ∀ place < Session.small.program.body.length,
      firstVisits (itemVisits Session.small.program.body.length visits) place =
        firstVisits (itemVisits Session.small.program.body.length others) place := by
    decide
  have hplaces : ∀ place < Session.small.program.body.length, place ∈ [1, 0, 1] := by
    decide
  exact ⟨hfirst, (afterVisits_order Session.small).1 visits others hfirst, hplaces,
    (afterVisits_order Session.small).2 0 .root [1, 0, 1] (.inr rfl) hplaces⟩

end Session

end Retarget
