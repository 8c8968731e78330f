import AngleLexer.Token.Kind

/-!
# Generic calls

In `receiver.method<A, B>(args)` the `<` opens type arguments, in `a < b` it compares, and both
begin alike. What tells them apart stands further on: the type arguments of a call end with a `>`
that a parenthesis follows at once. So the kinds of all tokens are searched **from the back** for
such a pair, and the `<` that matches its `>` is the opener of a generic call.

* Between an opener and its `>` no further openers are looked for: the search goes on before the
  opener, so only the outermost of nested calls counts.
* The four kinds `<`, `!`, `>`, `(` in a row are the raw form of a call, which has no type
  arguments. The search steps over it as a whole.
* A `>` without a matching `<` opens nothing.

Only kinds are looked at. Since `w < x > (y)` has the shape of a generic call, it is taken for one.

The search runs over the kinds in reverse order. What follows a kind in the reversed list stands
before it in the source, so the length of that rest is the index of the kind.
-/

namespace AngleLexer.GenericCall

/-- The kinds before the `<` that matches a `>`, where `waiting` further `>` wait for theirs. The
list holds the kinds before that `>`, the nearest one first. -/
def beforeOpener? (waiting : Nat) : List Kind → Option (List Kind)
  | [] => none
  | .symbol .lt :: before =>
    match waiting with
    | 0 => some before
    | n + 1 => beforeOpener? n before
  | .symbol .gt :: before => beforeOpener? (waiting + 1) before
  | _ :: before => beforeOpener? waiting before

/-- What stands before an opener is shorter than what was searched. -/
theorem length_lt_of_beforeOpener? {n : Nat} {ks before : List Kind}
    (h : beforeOpener? n ks = some before) : before.length < ks.length := by
  fun_induction beforeOpener? n ks with
  | case1 => cases h
  | case2 rest => cases h; exact Nat.lt_succ_self _
  | case3 rest n ih => exact Nat.lt_succ_of_lt (ih h)
  | case4 n rest ih => exact Nat.lt_succ_of_lt (ih h)
  | case5 n k rest _ _ ih => exact Nat.lt_succ_of_lt (ih h)

/-- The indices of the openers of generic calls in a list of kinds that is given in reverse
order, in the order in which the search finds them: the last one first. -/
def openersFromBack : List Kind → List Nat
  | .symbol .leftParen :: .symbol .gt :: .symbol .bang :: .symbol .lt :: before =>
    openersFromBack before
  | .symbol .leftParen :: .symbol .gt :: before =>
    match _h : beforeOpener? 0 before with
    | some outside => outside.length :: openersFromBack outside
    | none => openersFromBack before
  | _ :: before => openersFromBack before
  | [] => []
termination_by ks => ks.length
decreasing_by
  · simp only [List.length_cons]
    omega
  · have := length_lt_of_beforeOpener? _h
    simp only [List.length_cons]
    omega
  · simp only [List.length_cons]
    omega
  · exact Nat.lt_succ_self _

/-- The indices, in a list of kinds, of the `<` that open type arguments, in increasing order. -/
def openers (ks : List Kind) : List Nat :=
  (openersFromBack ks.reverse).reverse

end AngleLexer.GenericCall
