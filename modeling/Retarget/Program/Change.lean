import Retarget.Program.Basic

/-!
# Changes to a program

The items of a program can be copied, removed, swapped and appended, and a call can lose its span.
A copy keeps the marks of what it copies. Numbers that no item or call has change nothing.
-/

namespace Retarget

namespace Tree

/-- Takes away the span of one call, counting calls in the order in which they are visited. The
number tells how many calls come before it, and is `none` once the call has been found. -/
def dropSpan : ∀ {s : Shape}, Tree s → Option Nat → Tree s × Option Nat
  | _, atom value, left => (atom value, left)
  | _, span value, left => (span value, left)
  | _, str pos value raw, left => (str pos value raw, left)
  | _, ident pos name more, left =>
    let (more, left) := more.dropSpan left
    (ident pos name more, left)
  | _, member pos object property, left =>
    let (object, left) := object.dropSpan left
    let (property, left) := property.dropSpan left
    (member pos object property, left)
  | _, call pos callee arguments typeArguments marks, left =>
    let (callee, left) := callee.dropSpan left
    let (arguments, left) := arguments.dropSpan left
    let (typeArguments, left) := typeArguments.dropSpan left
    match left with
    | none => (call pos callee arguments typeArguments marks, none)
    | some 0 => (call .dummy callee arguments typeArguments marks, none)
    | some (n + 1) => (call pos callee arguments typeArguments marks, some n)
  | _, arg spread value, left =>
    let (value, left) := value.dropSpan left
    (arg spread value, left)
  | _, list items, left =>
    let (items, left) := items.dropSpan left
    (list items, left)
  | _, record kind fields, left =>
    let (fields, left) := fields.dropSpan left
    (record kind fields, left)
  | _, nil, left => (nil, left)
  | _, cons head tail, left =>
    let (head, left) := head.dropSpan left
    let (tail, left) := tail.dropSpan left
    (cons head tail, left)
  | _, noField, left => (noField, left)
  | _, field name value rest, left =>
    let (value, left) := value.dropSpan left
    let (rest, left) := rest.dropSpan left
    (field name value rest, left)

end Tree

/-- Takes away the span of one call among items. -/
def dropSpans : List Node → Option Nat → List Node
  | [], _ => []
  | item :: rest, left =>
    let (item, left) := item.dropSpan left
    item :: dropSpans rest left

/-- A change to the items of a program.

* `copy`: adds a copy of an item at the end.
* `remove`, `swap`: removes an item, exchanges two items.
* `append`: adds the items of another program at the end.
* `dropSpan`: takes away the span of a call. -/
inductive Change where
  | copy (item : Nat)
  | remove (item : Nat)
  | swap (item other : Nat)
  | append (program : Program)
  | dropSpan (call : Nat)

/-- The items after a change. -/
def Change.apply (body : List Node) : Change → List Node
  | copy item => body ++ body[item]?.toList
  | remove item => body.eraseIdx item
  | swap item other =>
    match body[item]?, body[other]? with
    | some a, some b => (body.set item b).set other a
    | _, _ => body
  | append program => body ++ program.body
  | dropSpan call => dropSpans body (some call)

end Retarget
