import TenantSizing.Tree.Basic

namespace TenantSizing

namespace Tree

mutual

/-- The explicit tree, with every field that it lacks or leaves null taken from the template. -/
def fill (template explicit : Tree) : Tree :=
  match template, explicit with
  | template, .scalar .null => template
  | .scalar .null, explicit => explicit
  | .map ts, .map es => .map (fillEntries ts es ++ Keyed.without es ts)
  | .list xs, .list ys => .list (fillItems xs ys)
  | _, explicit => explicit

def fillItems : List Tree → List Tree → List Tree
  | [], ys => ys
  | xs, [] => xs
  | x :: xs, y :: ys => fill x y :: fillItems xs ys

def fillEntries : Entries → Entries → Entries
  | [], _ => []
  | (key, t) :: ts, es => (key, fill t ((es.lookup key).getD .null)) :: fillEntries ts es

end

end Tree

end TenantSizing
