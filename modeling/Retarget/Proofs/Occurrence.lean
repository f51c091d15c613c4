import Retarget.Proofs.Outline

/-!
# Occurrences of a name

The search for a name carries a flag through a tree and turns back at expressions as soon as the
flag is set. `Within` says without any search where a node may stand in a tree, and `Retouched` how
far a tree may be changed before a name can come or go: the contents of string literals and the marks
of calls do not matter.

Results:
1. `mem_identifiers_iff`: the identifiers of a tree are the names that occur in it.
2. `Retouched.outline`: a retouched tree keeps its outline.
3. `mentions_iff_occurs`: the search tells exactly whether a name occurs in a tree, before and after
   the tree is retouched.
-/

namespace Retarget.Tree

/-! ## Definitions -/

/-- `Within node tree`: the node is the tree or stands somewhere in it, at any depth. -/
inductive Within (node : Node) : ∀ {s : Shape}, Tree s → Prop
  | self : Within node node
  | more {pos : Span} {name : String} {more : Tree .fields} :
      Within node more → Within node (ident pos name more)
  | object {pos : Span} {object property : Node} :
      Within node object → Within node (member pos object property)
  | property {pos : Span} {object property : Node} :
      Within node property → Within node (member pos object property)
  | callee {pos : Span} {callee typeArguments : Node} {arguments : Tree .items}
      {marks : List Mark} :
      Within node callee → Within node (call pos callee arguments typeArguments marks)
  | arguments {pos : Span} {callee typeArguments : Node} {arguments : Tree .items}
      {marks : List Mark} :
      Within node arguments → Within node (call pos callee arguments typeArguments marks)
  | typeArguments {pos : Span} {callee typeArguments : Node} {arguments : Tree .items}
      {marks : List Mark} :
      Within node typeArguments → Within node (call pos callee arguments typeArguments marks)
  | value {spread : Option Span} {value : Node} : Within node value → Within node (arg spread value)
  | items {items : Tree .items} : Within node items → Within node (list items)
  | fields {kind : Option String} {fields : Tree .fields} :
      Within node fields → Within node (record kind fields)
  | head {head : Node} {tail : Tree .items} : Within node head → Within node (cons head tail)
  | tail {head : Node} {tail : Tree .items} : Within node tail → Within node (cons head tail)
  | field {label : String} {value : Node} {rest : Tree .fields} :
      Within node value → Within node (field label value rest)
  | rest {label : String} {value : Node} {rest : Tree .fields} :
      Within node rest → Within node (field label value rest)

/-- A name occurs in a tree when an identifier of that name stands within it. -/
def Occurs (name : String) {s : Shape} (tree : Tree s) : Prop :=
  ∃ pos more, Within (ident pos name more) tree

/-- `Retouched old new`: the trees are the same, except that string literals may hold other contents
and calls may carry other marks. -/
inductive Retouched : ∀ {s : Shape}, Tree s → Tree s → Prop
  | atom (value : Atom) : Retouched (atom value) (atom value)
  | span (value : Span) : Retouched (span value) (span value)
  | str (pos : Span) (value value' : String) (raw raw' : Option String) :
      Retouched (str pos value raw) (str pos value' raw')
  | ident {pos : Span} {name : String} {more more' : Tree .fields} :
      Retouched more more' → Retouched (ident pos name more) (ident pos name more')
  | member {pos : Span} {object object' property property' : Node} :
      Retouched object object' → Retouched property property' →
      Retouched (member pos object property) (member pos object' property')
  | call {pos : Span} {callee callee' typeArguments typeArguments' : Node}
      {arguments arguments' : Tree .items} {marks marks' : List Mark} :
      Retouched callee callee' → Retouched arguments arguments' →
      Retouched typeArguments typeArguments' →
      Retouched (call pos callee arguments typeArguments marks)
        (call pos callee' arguments' typeArguments' marks')
  | arg {spread : Option Span} {value value' : Node} :
      Retouched value value' → Retouched (arg spread value) (arg spread value')
  | list {items items' : Tree .items} :
      Retouched items items' → Retouched (list items) (list items')
  | record {kind : Option String} {fields fields' : Tree .fields} :
      Retouched fields fields' → Retouched (record kind fields) (record kind fields')
  | nil : Retouched nil nil
  | cons {head head' : Node} {tail tail' : Tree .items} :
      Retouched head head' → Retouched tail tail' → Retouched (cons head tail) (cons head' tail')
  | noField : Retouched noField noField
  | field {label : String} {value value' : Node} {rest rest' : Tree .fields} :
      Retouched value value' → Retouched rest rest' →
      Retouched (field label value rest) (field label value' rest')

/-! ## 1. Identifiers -/

theorem Within.mem_identifiers {pos : Span} {name : String} {more : Tree .fields} {s : Shape}
    {tree : Tree s} (h : Within (ident pos name more) tree) : name ∈ tree.identifiers := by
  induction h with
  | self => exact List.mem_cons_self
  | more _ ih => exact List.mem_cons_of_mem _ ih
  | object _ ih => exact List.mem_append_left _ ih
  | property _ ih => exact List.mem_append_right _ ih
  | callee _ ih => exact List.mem_append_left _ (List.mem_append_left _ ih)
  | arguments _ ih => exact List.mem_append_left _ (List.mem_append_right _ ih)
  | typeArguments _ ih => exact List.mem_append_right _ ih
  | value _ ih => exact ih
  | items _ ih => exact ih
  | fields _ ih => exact ih
  | head _ ih => exact List.mem_append_left _ ih
  | tail _ ih => exact List.mem_append_right _ ih
  | field _ ih => exact List.mem_append_left _ ih
  | rest _ ih => exact List.mem_append_right _ ih

theorem Occurs.lift {name : String} {s t : Shape} {part : Tree s} {tree : Tree t}
    (h : Occurs name part) (hpart : ∀ {node : Node}, Within node part → Within node tree) :
    Occurs name tree := by
  obtain ⟨pos, more, hwithin⟩ := h
  exact ⟨pos, more, hpart hwithin⟩

theorem occurs_of_mem_identifiers {name : String} {s : Shape} {tree : Tree s}
    (h : name ∈ tree.identifiers) : Occurs name tree := by
  induction tree with
  | atom value => cases h
  | span value => cases h
  | str pos value raw => cases h
  | ident pos other more ih =>
    rcases List.mem_cons.mp h with rfl | h
    · exact ⟨pos, more, .self⟩
    · exact (ih h).lift .more
  | member pos object property ihObject ihProperty =>
    rcases List.mem_append.mp h with h | h
    · exact (ihObject h).lift .object
    · exact (ihProperty h).lift .property
  | call pos callee arguments typeArguments marks ihCallee ihArguments ihTypeArguments =>
    rcases List.mem_append.mp h with h | h
    · rcases List.mem_append.mp h with h | h
      · exact (ihCallee h).lift .callee
      · exact (ihArguments h).lift .arguments
    · exact (ihTypeArguments h).lift .typeArguments
  | arg spread value ih => exact (ih h).lift .value
  | list items ih => exact (ih h).lift .items
  | record kind fields ih => exact (ih h).lift .fields
  | nil => cases h
  | cons head tail ihHead ihTail =>
    rcases List.mem_append.mp h with h | h
    · exact (ihHead h).lift .head
    · exact (ihTail h).lift .tail
  | noField => cases h
  | field label value rest ihValue ihRest =>
    rcases List.mem_append.mp h with h | h
    · exact (ihValue h).lift .field
    · exact (ihRest h).lift .rest

/-- The identifiers of a tree are the names that occur in it. -/
theorem mem_identifiers_iff {name : String} {s : Shape} {tree : Tree s} :
    name ∈ tree.identifiers ↔ Occurs name tree := by
  constructor
  · exact occurs_of_mem_identifiers
  · rintro ⟨pos, more, h⟩
    exact h.mem_identifiers

/-! ## 2. Retouched trees -/

theorem Retouched.outline {s : Shape} {old new : Tree s} (h : Retouched old new) :
    new.outline = old.outline := by
  induction h with
  | atom value => rfl
  | span value => rfl
  | str pos value value' raw raw' => rfl
  | ident _ ih => rw [Tree.outline, Tree.outline, ih]
  | member _ _ ihObject ihProperty => rw [Tree.outline, Tree.outline, ihObject, ihProperty]
  | call _ _ _ ihCallee ihArguments ihTypeArguments =>
    rw [Tree.outline, Tree.outline, ihCallee, ihArguments, ihTypeArguments]
  | arg _ ih => rw [Tree.outline, Tree.outline, ih]
  | list _ ih => rw [Tree.outline, Tree.outline, ih]
  | record _ ih => rw [Tree.outline, Tree.outline, ih]
  | nil => rfl
  | cons _ _ ihHead ihTail => rw [Tree.outline, Tree.outline, ihHead, ihTail]
  | noField => rfl
  | field _ _ ihValue ihRest => rw [Tree.outline, Tree.outline, ihValue, ihRest]

/-! ## 3. The search -/

/-- The search for a name gives what looking at every identifier would give: it tells exactly
whether an identifier of that name stands within the tree, at whatever depth and in whatever part.
Its answer stays the same when string literals are given other contents and calls other marks. -/
theorem mentions_iff_occurs (name : String) {s : Shape} (tree : Tree s) :
    tree.mentions name = decide (name ∈ tree.identifiers) ∧
    (tree.mentions name = true ↔ Occurs name tree) ∧
    ∀ new : Tree s, Retouched tree new → new.mentions name = tree.mentions name := by
  refine ⟨?_, mentions_iff.trans mem_identifiers_iff, ?_⟩
  · rw [Bool.eq_iff_iff, mentions_iff, decide_eq_true_iff]
  · intro new h
    rw [← mentions_outline, h.outline, mentions_outline]

/-- The second link of a chain still mentions the framework when passes have pointed the literal of
the first one elsewhere and left their marks. -/
theorem mentions_iff_occurs_link :
    let link (name : String) (raw : Option String) (marks : List Mark) : Node :=
      .member ⟨1, 9⟩
        (.call ⟨1, 7⟩
          (.member ⟨1, 3⟩ (.ident ⟨1, 2⟩ "jest" .noField) (.ident ⟨2, 3⟩ "mock" .noField))
          (.cons (.arg none (.str ⟨4, 6⟩ name raw)) .nil) (.atom .null) marks)
        (.ident ⟨8, 9⟩ "dontMock" .noField)
    Retouched (link "a" (some "'a'") []) (link "./a" none [0, 1]) ∧
      (link "./a" none [0, 1]).mentions "jest" = (link "a" (some "'a'") []).mentions "jest" ∧
      Occurs "jest" (link "a" (some "'a'") []) := by
  intro link
  have hretouched : Retouched (link "a" (some "'a'") []) (link "./a" none [0, 1]) :=
    .member
      (.call (.member (.ident .noField) (.ident .noField))
        (.cons (.arg (.str _ _ _ _ _)) .nil) (.atom _))
      (.ident .noField)
  obtain ⟨_, hoccurs, hsame⟩ := mentions_iff_occurs "jest" (link "a" (some "'a'") [])
  exact ⟨hretouched, hsame _ hretouched, hoccurs.mp (by decide)⟩

end Retarget.Tree
