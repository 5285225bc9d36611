import TenantSizing.Merge.Filtered

namespace TenantSizing

inductive Extreme where
  | max
  | min
  deriving DecidableEq, Repr

def Extreme.read? : String → Option Extreme
  | "max" => some .max
  | "min" => some .min
  | _ => none

def Extreme.pick : Extreme → Scalar → Scalar → Scalar
  | .max => Scalar.larger
  | .min => Scalar.smaller

namespace Tree

mutual

def extremeMerge (extreme : Extreme) (current summary : Tree) : Tree :=
  if current.same summary then current
  else
    match current, summary with
    | current, .scalar .null => current
    | .scalar .null, summary => summary
    | .map cs, .map ss => .map (extremeMergeEntries extreme cs ss ++ Keyed.without ss cs)
    | .list xs, .list ys => .list (extremeMergeItems extreme xs ys)
    | .scalar a, .scalar b => .scalar (extreme.pick a b)
    | current, _ => current

def extremeMergeItems (extreme : Extreme) : List Tree → List Tree → List Tree
  | [], ys => ys
  | xs, [] => xs
  | x :: xs, y :: ys => extremeMerge extreme x y :: extremeMergeItems extreme xs ys

def extremeMergeEntries (extreme : Extreme) : Entries → Entries → Entries
  | [], _ => []
  | (key, c) :: cs, ss =>
    (key, extremeMerge extreme c ((ss.lookup key).getD .null)) :: extremeMergeEntries extreme cs ss

end

mutual

/-- The places where `extremeMerge` keeps the current tree because the summary is of another kind,
in the order of the summary. -/
def extremeClashes (path : Path) (current summary : Tree) : List Clash :=
  if current.same summary then []
  else
    match summary, current with
    | .scalar .null, _ => []
    | _, .scalar .null => []
    | .map ss, .map cs => extremeEntriesClashes path ss cs
    | .list ys, .list xs => extremeItemsClashes path 0 ys xs
    | .scalar _, .scalar _ => []
    | summary, current => [⟨path, current.kind, summary.kind⟩]
termination_by structural summary

def extremeItemsClashes (path : Path) (position : Nat) : List Tree → List Tree → List Clash
  | y :: ys, x :: xs =>
    extremeClashes (path ++ [.index position]) x y ++
      extremeItemsClashes path (position + 1) ys xs
  | _, _ => []
termination_by structural summary => summary

def extremeEntriesClashes (path : Path) : Entries → Entries → List Clash
  | [], _ => []
  | (key, s) :: ss, cs =>
    extremeClashes (path ++ [.key key]) ((cs.lookup key).getD .null) s ++
      extremeEntriesClashes path ss cs
termination_by structural summary => summary

end

end Tree

end TenantSizing
