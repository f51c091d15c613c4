import Retarget.Reference

/-!
# The outline of a tree

The outline of a tree is what is left of it when its positions, the contents of its string literals
and the marks of its calls are forgotten. The search for a name and the kind of a call depend on the
outline alone, so that whoever changes only positions, literals and marks changes neither.

Results:
1. `mentions_iff`: a tree mentions its identifiers; `mentions_outline`: it mentions the names that its
   outline mentions.
2. `ofCallee?_outline`: a callee is of the kind of which its outline is, and hence
   `ofCallee?_congr`: callees with one outline are of one kind.
-/

namespace Retarget

namespace Tree

/-- Forgets positions, the contents of string literals and the marks of calls. -/
def outline : ∀ {s : Shape}, Tree s → Tree s
  | _, atom value => atom value
  | _, span _ => span .dummy
  | _, str _ _ _ => str .dummy "" none
  | _, ident _ name more => ident .dummy name more.outline
  | _, member _ object property => member .dummy object.outline property.outline
  | _, call _ callee arguments typeArguments _ =>
    call .dummy callee.outline arguments.outline typeArguments.outline []
  | _, arg spread value => arg (spread.map fun _ => .dummy) value.outline
  | _, list items => list items.outline
  | _, record kind fields => record kind fields.outline
  | _, nil => nil
  | _, cons head tail => cons head.outline tail.outline
  | _, noField => noField
  | _, field name value rest => field name value.outline rest.outline

/-! ## 1. The search for a name -/

/-- The search has seen a name exactly if it had seen it before or the name stands among the
identifiers. It passes over expressions only when they could no more than confirm this. -/
theorem search_iff {name : String} {s : Shape} {tree : Tree s} {seen : Bool} :
    tree.search name seen = true ↔ seen = true ∨ name ∈ tree.identifiers := by
  induction tree generalizing seen with
  | atom value => exact (or_iff_left List.not_mem_nil).symm
  | span value => exact (or_iff_left List.not_mem_nil).symm
  | str pos value raw => exact (or_iff_left List.not_mem_nil).symm
  | ident pos other more ih =>
    rw [search, ih, identifiers, Bool.or_eq_true, beq_iff_eq, List.mem_cons, or_assoc,
      eq_comm (a := name)]
  | member pos object property ihObject ihProperty =>
    cases seen with
    | true => exact iff_of_true rfl (.inl rfl)
    | false =>
      rw [search, if_neg Bool.false_ne_true, ihProperty, ihObject, identifiers, List.mem_append,
        or_assoc]
  | call pos callee arguments typeArguments marks ihCallee ihArguments ihTypeArguments =>
    cases seen with
    | true => exact iff_of_true rfl (.inl rfl)
    | false =>
      rw [search, if_neg Bool.false_ne_true, ihTypeArguments, ihArguments, ihCallee, identifiers,
        List.mem_append, List.mem_append, or_assoc, or_assoc, or_assoc]
  | arg spread value ih => exact ih
  | list items ih => exact ih
  | record kind fields ih =>
    rw [search, identifiers]
    split
    · next h => exact iff_of_true rfl (.inl (Bool.and_eq_true_iff.mp h).1)
    · exact ih
  | nil => exact (or_iff_left List.not_mem_nil).symm
  | cons head tail ihHead ihTail =>
    rw [search, ihTail, ihHead, identifiers, List.mem_append, or_assoc]
  | noField => exact (or_iff_left List.not_mem_nil).symm
  | field label value rest ihValue ihRest =>
    rw [search, ihRest, ihValue, identifiers, List.mem_append, or_assoc]

theorem mentions_iff {name : String} {s : Shape} {tree : Tree s} :
    tree.mentions name = true ↔ name ∈ tree.identifiers := by
  rw [mentions, search_iff, or_iff_right Bool.false_ne_true]

theorem search_outline (name : String) {s : Shape} (tree : Tree s) (seen : Bool) :
    tree.outline.search name seen = tree.search name seen := by
  induction tree generalizing seen with
  | atom value => rfl
  | span value => rfl
  | str pos value raw => rfl
  | ident pos other more ih => exact ih (seen || other == name)
  | member pos object property ihObject ihProperty =>
    rw [outline, search, search, ihObject, ihProperty]
  | call pos callee arguments typeArguments marks ihCallee ihArguments ihTypeArguments =>
    rw [outline, search, search, ihCallee, ihArguments, ihTypeArguments]
  | arg spread value ih => exact ih seen
  | list items ih => exact ih seen
  | record kind fields ih => rw [outline, search, search, ih]
  | nil => rfl
  | cons head tail ihHead ihTail => rw [outline, search, search, ihHead, ihTail]
  | noField => rfl
  | field label value rest ihValue ihRest => rw [outline, search, search, ihValue, ihRest]

theorem mentions_outline (name : String) {s : Shape} (tree : Tree s) :
    tree.outline.mentions name = tree.mentions name :=
  search_outline name tree false

end Tree

namespace Reference

/-! ## 2. The kind of a callee -/

theorem isDirectLoad_outline (callee : Node) :
    isDirectLoad callee.outline = isDirectLoad callee := by
  cases callee with
  | member pos object property =>
    cases object with
    | ident start name more => cases property <;> rfl
    | _ => rfl
  | _ => rfl

theorem isMockHelper_outline (callee : Node) :
    isMockHelper callee.outline = isMockHelper callee := by
  cases callee with
  | member pos object property =>
    cases property with
    | ident start name more =>
      have h := Tree.mentions_outline framework (.member pos object (.ident start name more))
      rw [Tree.outline, Tree.outline] at h
      rw [Tree.outline, Tree.outline, isMockHelper, isMockHelper, h]
    | _ => rfl
  | _ => rfl

theorem ofCallee?_outline (callee : Node) : ofCallee? callee.outline = ofCallee? callee := by
  rw [ofCallee?, ofCallee?, isDirectLoad_outline, isMockHelper_outline]

/-- Callees with one outline are of one kind. -/
theorem ofCallee?_congr {callee other : Node} (h : callee.outline = other.outline) :
    ofCallee? callee = ofCallee? other := by
  rw [← ofCallee?_outline callee, h, ofCallee?_outline]

end Reference

end Retarget
