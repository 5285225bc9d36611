import TenantSizing.Proofs.Agreement
import TenantSizing.Proofs.ReorderedRequests

namespace TenantSizing

namespace Yaml

/-- The string that a value is, if it is one. -/
def Atom.text? : Atom → Option String
  | .scalar (.text value) => some value
  | _ => none

theorem Atom.text?_eq_some {value : Atom} {text : String} :
    value.text? = some text ↔ value = .scalar (.text text) := by
  unfold text?
  split
  · simp
  · rename_i other
    simpa using other text

/-- The entries of a mapping whose keys are strings. -/
def named {α : Type} (entries : List (Atom × α)) : Keyed α :=
  entries.filterMap fun entry => entry.1.text?.map fun key => (key, entry.2)

theorem named_map {α β : Type} (f : α → β) (entries : List (Atom × α)) :
    named (entries.map fun entry => (entry.1, f entry.2)) =
      (named entries).map fun entry => (entry.1, f entry.2) := by
  unfold named
  rw [List.filterMap_map, List.map_filterMap]
  refine List.filterMap_congr fun entry _ => ?_
  cases h : entry.1.text? <;> simp [h]

mutual

/-- The value as a tree of rules. -/
def Value.tree : Value → Tree
  | .atom value => .scalar (value.scalar?.getD (.text ""))
  | .sequence items => .list (treeItems items)
  | .mapping entries => .map (treeEntries entries)
  | _ => .text ""

def Value.treeItems : List Value → List Tree
  | [] => []
  | item :: items => item.tree :: treeItems items

def Value.treeEntries : List (Atom × Value) → Entries
  | [] => []
  | (key, value) :: rest =>
    match key.text? with
    | some name => (name, value.tree) :: treeEntries rest
    | none => treeEntries rest

end

namespace Value

theorem tree_sequence (items : List Value) :
    (Value.sequence items).tree = .list (items.map tree) := by
  rw [tree]
  congr 1
  induction items with
  | nil => rfl
  | cons item items ih => rw [treeItems, ih, List.map_cons]

theorem tree_mapping (entries : List (Atom × Value)) :
    (Value.mapping entries).tree =
      .map ((named entries).map fun entry => (entry.1, entry.2.tree)) := by
  rw [tree]
  congr 1
  induction entries with
  | nil => rfl
  | cons entry rest ih =>
    obtain ⟨key, value⟩ := entry
    rw [treeEntries, ih]
    cases h : key.text? <;> simp [named, h]

end Value

namespace Layer

variable {α β : Type} {f : α → β}

def map (f : α → β) : Layer α → Layer β
  | .atom value => .atom value
  | .sequence items => .sequence (items.map f)
  | .pairs entries => .pairs (entries.map fun entry => (f entry.1, f entry.2))
  | .set members => .set members
  | .mapping entries => .mapping (entries.map fun entry => (entry.1, f entry.2))

theorem mapM_option_map {γ : Type} {g : γ → Option α} {h : γ → Option β}
    (hg : ∀ x, h x = (g x).map f) (xs : List γ) : xs.mapM h = (xs.mapM g).map (List.map f) := by
  induction xs with
  | nil => rfl
  | cons x xs ih =>
    rw [List.mapM_cons, List.mapM_cons, hg, ih]
    cases g x <;> cases xs.mapM g <;> rfl

theorem below_map (known : Array (Option α)) (ref : Ref) :
    over?.below (known.map (Option.map f)) ref = (over?.below known ref).map f := by
  simp only [over?.below, Array.getElem?_map]
  cases known[ref]? <;> rfl

theorem over?_map (known : Array (Option α)) (layer : Layer Ref) :
    layer.over? (known.map (Option.map f)) = (layer.over? known).map (map f) := by
  cases layer with
  | atom value => rfl
  | set members => rfl
  | sequence items =>
    rw [over?, over?, mapM_option_map (below_map known)]
    cases items.mapM (over?.below known) <;> rfl
  | pairs entries =>
    have pair : ∀ entry : Ref × Ref,
        (do pure (← over?.below (known.map (Option.map f)) entry.1,
            ← over?.below (known.map (Option.map f)) entry.2) : Option (β × β)) =
          (do pure (← over?.below known entry.1, ← over?.below known entry.2) : Option (α × α)).map
            fun entry => (f entry.1, f entry.2) := by
      intro entry
      rw [below_map, below_map]
      cases over?.below known entry.1 <;> cases over?.below known entry.2 <;> rfl
    rw [over?, over?, mapM_option_map pair]
    rw [Option.map_eq_map, Option.map_eq_map, Option.map_map, Option.map_map]
    rfl
  | mapping entries =>
    have pair : ∀ entry : Atom × Ref,
        (do pure (entry.1, ← over?.below (known.map (Option.map f)) entry.2) : Option (Atom × β)) =
          (do pure (entry.1, ← over?.below known entry.2) : Option (Atom × α)).map
            fun entry => (entry.1, f entry.2) := by
      intro entry
      rw [below_map]
      cases over?.below known entry.2 <;> rfl
    rw [over?, over?, mapM_option_map pair]
    rw [Option.map_eq_map, Option.map_eq_map, Option.map_map, Option.map_map]
    rfl

theorem tree_toValue (layer : Layer Value) :
    layer.toValue.tree = (layer.map Value.tree).toTree := by
  cases layer with
  | atom value => rfl
  | set members => rfl
  | pairs entries => rfl
  | sequence items => exact Value.tree_sequence items
  | mapping entries =>
    rw [toValue, Value.tree_mapping, ← named_map, map, toTree, named]
    congr 2
    funext entry
    obtain ⟨key, value⟩ := entry
    cases key with
    | scalar value => cases value <;> rfl
    | _ => rfl

end Layer

namespace Document

variable {α β : Type} {f : α → β} {whole : Layer α → α} {whole' : Layer β → β}

section

variable (h : ∀ layer, f (whole layer) = whole' (layer.map f)) (document : Document)

include h

theorem over?_whole (known : Array (Option α)) (layer : Layer Ref) :
    (layer.over? (known.map (Option.map f))).map whole' =
      ((layer.over? known).map whole).map f := by
  rw [Layer.over?_map]
  cases layer.over? known with
  | none => rfl
  | some layer => exact congrArg some (h layer).symm

theorem settle_map (known : Array (Option α)) :
    document.settle whole' (known.map (Option.map f)) =
      (document.settle whole known).map (Option.map f) := by
  unfold settle
  induction List.range document.layers.size with
  | nil => rfl
  | cons ref refs ih =>
    rw [List.foldr_cons, List.foldr_cons, ih]
    generalize List.foldr _ known refs = known
    rw [Array.getElem?_map]
    cases document.layers[ref]? with
    | none => rcases known[ref]? with _ | _ | value <;> rfl
    | some layer =>
      have found := over?_whole h known layer
      rcases known[ref]? with _ | _ | value
      · dsimp only [Option.map_none, Option.join_none]
        rw [found, Array.map_setIfInBounds]
      · dsimp only [Option.map_some, Option.map_none, Option.join_some]
        rw [found, Array.map_setIfInBounds]
      · rfl

theorem settleAll_map (fuel : Nat) (known : Array (Option α)) :
    document.settleAll whole' fuel (known.map (Option.map f)) =
      (document.settleAll whole fuel known).map (Option.map f) := by
  have missing : ∀ known : Array (Option α),
      (known.map (Option.map f)).countP Option.isNone = known.countP Option.isNone := by
    intro known
    rw [Array.countP_map]
    congr 1
    funext value
    cases value <;> rfl
  induction fuel generalizing known with
  | zero => rfl
  | succ fuel ih =>
    simp only [settleAll, settle_map h, missing]
    split
    · rfl
    · exact ih _

theorem cutOff_map (cut : α) (known : Array (Option α)) (depth : Nat) :
    document.cutOff whole' (f cut) (known.map (Option.map f)) depth =
      (document.cutOff whole cut known depth).map (Option.map f) := by
  induction depth with
  | zero =>
    simp only [cutOff, Array.map_map]
    congr 1
    funext value
    cases value <;> rfl
  | succ depth ih =>
    simp only [cutOff, ih]
    rw [Array.map_zipWith, Array.zipWith_map_left]
    congr 1
    funext value layer
    cases value with
    | some value => rfl
    | none => exact over?_whole h _ layer

/-- What turns layers of one kind into layers of another does so with the whole. -/
theorem unfold_map (cut : α) : document.unfold whole' (f cut) = f (document.unfold whole cut) := by
  have start : Array.replicate document.layers.size none =
      (Array.replicate document.layers.size none).map (Option.map f) := by
    rw [Array.map_replicate, Option.map_none]
  unfold unfold
  dsimp only
  rw [start, settleAll_map h, Array.getElem?_map]
  generalize document.settleAll whole _ _ = known
  have deeper : ∀ depth,
      (document.cutOff whole' (f cut) (known.map (Option.map f)) depth)[document.root]?.join.getD
          (f cut) =
        f ((document.cutOff whole cut known depth)[document.root]?.join.getD cut) := by
    intro depth
    rw [cutOff_map h, Array.getElem?_map]
    rcases (document.cutOff whole cut known depth)[document.root]? with _ | _ | value <;> rfl
  rcases known[document.root]? with _ | _ | value
  · exact deeper _
  · exact deeper _
  · rfl

end

/-- The tree of a document is that of its value. -/
theorem tree_eq (document : Document) : document.tree = document.value.tree :=
  document.unfold_map Layer.tree_toValue .null

end Document

namespace Value

/-- The same value, with the entries of mappings and the members of sets in any order. No mapping
has a string as a key twice. -/
inductive Reordered : Value → Value → Prop where
  | atom (value : Atom) : Reordered (.atom value) (.atom value)
  | sequence {xs ys : List Value} (length : xs.length = ys.length)
      (items : ∀ i (hx : i < xs.length) (hy : i < ys.length), Reordered xs[i] ys[i]) :
      Reordered (.sequence xs) (.sequence ys)
  | pairs {xs ys : List (Value × Value)} (length : xs.length = ys.length)
      (keys : ∀ i (hx : i < xs.length) (hy : i < ys.length), Reordered xs[i].1 ys[i].1)
      (values : ∀ i (hx : i < xs.length) (hy : i < ys.length), Reordered xs[i].2 ys[i].2) :
      Reordered (.pairs xs) (.pairs ys)
  | set {xs ys : List Atom} (turned : xs.Perm ys) : Reordered (.set xs) (.set ys)
  | mapping {xs turned ys : List (Atom × Value)} (distinct : (Keyed.keys (named xs)).Nodup)
      (perm : xs.Perm turned) (length : turned.length = ys.length)
      (keys : ∀ i (hx : i < turned.length) (hy : i < ys.length), turned[i].1 = ys[i].1)
      (values : ∀ i (hx : i < turned.length) (hy : i < ys.length), Reordered turned[i].2 ys[i].2) :
      Reordered (.mapping xs) (.mapping ys)

/-- What entries related in this way hold under a key is related. -/
theorem rel_lookup_named {R : Value → Value → Prop} {xs turned ys : List (Atom × Value)}
    (distinct : (Keyed.keys (named xs)).Nodup) (perm : xs.Perm turned)
    (h : List.Forall₂ (fun x y => x.1 = y.1 ∧ R x.2 y.2) turned ys) (key : String) :
    Option.Rel R ((named xs).lookup key) ((named ys).lookup key) := by
  have turning : (named xs).Perm (named turned) := perm.filterMap _
  rw [Keyed.lookup_perm turning distinct]
  clear turning perm distinct
  induction h with
  | nil => exact .none
  | cons first rest ih =>
    rename_i x y xs ys
    obtain ⟨k, v⟩ := x
    obtain ⟨l, w⟩ := y
    obtain ⟨rfl, related⟩ := first
    unfold named at ih ⊢
    cases hk : k.text? with
    | none => simpa [hk] using ih
    | some name =>
      simp only [List.filterMap_cons, hk, Option.map_some, Keyed.lookup_cons]
      split
      · exact .some related
      · exact ih

theorem get?_mapping (entries : List (Atom × Value)) (key : String) :
    (Value.mapping entries).get? key = (named entries).lookup key := by
  unfold get?
  dsimp only
  induction entries with
  | nil => rfl
  | cons entry rest ih =>
    rw [List.find?_cons, named, List.filterMap_cons, ← named]
    cases hk : entry.1.text? with
    | none =>
      have other : entry.1 ≠ .scalar (.text key) := fun h => by
        rw [Atom.text?_eq_some.mpr h] at hk
        cases hk
      simpa [other] using ih
    | some name =>
      rw [Atom.text?_eq_some.mp hk]
      by_cases h : name = key
      · simp [h]
      · simpa [h, Ne.symm h] using ih

namespace Reordered

variable {v w : Value}

theorem tree (h : v.Reordered w) : Tree.Alike v.tree w.tree := by
  induction h with
  | atom value => exact .refl _
  | set turned => exact .refl _
  | pairs length keys values => exact .refl _
  | sequence length items ih =>
    rename_i xs ys
    rw [tree_sequence, tree_sequence]
    refine .lists (by simpa using length) fun i => ?_
    simp only [Tree.item, Tree.items, List.getElem?_map]
    by_cases hi : i < xs.length
    · rw [List.getElem?_eq_getElem hi, List.getElem?_eq_getElem (length ▸ hi)]
      exact ih i hi (length ▸ hi)
    · rw [List.getElem?_eq_none (by omega), List.getElem?_eq_none (by omega)]
      exact .refl _
  | mapping distinct perm length keys values ih =>
    rename_i xs turned ys
    have entries : List.Forall₂ (fun x y => x.1 = y.1 ∧ Tree.Alike x.2.tree y.2.tree) turned ys :=
      List.forall₂_iff_get.mpr ⟨length, fun i hx hy => ⟨keys i hx hy, ih i hx hy⟩⟩
    rw [tree_mapping, tree_mapping]
    refine .of_lookup fun key => ?_
    rw [Keyed.lookup_map _ fun _ => Value.tree, Keyed.lookup_map _ fun _ => Value.tree]
    have related := rel_lookup_named (R := fun v w => Tree.Alike v.tree w.tree) distinct perm
      entries key
    generalize (named xs).lookup key = v, (named ys).lookup key = w at related
    cases related with
    | none => exact .none
    | some alike => exact .some alike

theorem get? (h : v.Reordered w) (key : String) :
    Option.Rel Reordered (v.get? key) (w.get? key) := by
  cases h with
  | mapping distinct perm length keys values =>
    rw [get?_mapping, get?_mapping]
    exact rel_lookup_named distinct perm (List.forall₂_iff_get.mpr
      ⟨length, fun i hx hy => ⟨keys i hx hy, values i hx hy⟩⟩) key
  | _ => exact .none

theorem isNull (h : v.Reordered w) : v.isNull = w.isNull := by
  cases h <;> rfl

theorem isMapping (h : v.Reordered w) : v.isMapping = w.isMapping := by
  cases h <;> rfl

end Reordered

end Value

end Yaml

/-- Both end well with related results, or both with the same fault. Unlike in `Agree`, nothing in a
fault is left out. -/
inductive Concur {ε α β : Type} (R : α → β → Prop) : Except ε α → Except ε β → Prop where
  | ok {a : α} {b : β} (h : R a b) : Concur R (.ok a) (.ok b)
  | error (fault : ε) : Concur R (.error fault) (.error fault)

theorem Concur.refl {ε α : Type} {R : α → α → Prop} (h : ∀ a, R a a) (x : Except ε α) :
    Concur R x x := by
  cases x with
  | error fault => exact .error fault
  | ok a => exact .ok (h a)

theorem concur_mapM {ε α β γ δ : Type} {R : α → β → Prop} {S : γ → δ → Prop}
    {work : γ → Except ε α} {work' : δ → Except ε β} {xs : List γ} {ys : List δ}
    (hw : ∀ x y, S x y → Concur R (work x) (work' y)) (h : List.Forall₂ S xs ys) :
    Concur (List.Forall₂ R) (xs.mapM work) (ys.mapM work') := by
  induction h with
  | nil => exact .ok .nil
  | cons first rest ih =>
    rename_i x y xs ys
    rw [List.mapM_cons, List.mapM_cons]
    have head := hw _ _ first
    generalize work x = r, work' y = s at head
    cases head with
    | error fault => exact .error fault
    | ok related =>
      generalize xs.mapM work = r, ys.mapM work' = s at ih
      cases ih with
      | error fault => exact .error fault
      | ok others => exact .ok (.cons related others)

namespace RuleSet

open Yaml

def document (text : String) : Except Failure Document :=
  (Document.read text).mapError failureOf

theorem read_eq (text : String) :
    read text = (document text).bind fun document =>
      (ofDocument document.value document.value.tree).mapError .malformedRules := by
  unfold read document
  cases Document.read text with
  | error fault => rfl
  | ok document =>
    dsimp only
    rw [Document.tree_eq]
    rfl

/-- Records of one operand with alike rules. -/
def AlikeRecords (record other : String × OperandSpec) : Prop :=
  record.1 = other.1 ∧ Tree.Alike record.2.rules other.2.rules

theorem readRecord_reordered (position : Nat) {v w : Value} (h : v.Reordered w) :
    Concur AlikeRecords (readRecord position v v.tree) (readRecord position w w.tree) := by
  have spec : ((v.get? "spec").getD .null).Reordered ((w.get? "spec").getD .null) := by
    have specs := h.get? "spec"
    generalize v.get? "spec" = x, w.get? "spec" = y at specs
    cases specs with
    | none => exact .atom _
    | some related => exact related
  have name := h.get? "name"
  unfold readRecord
  generalize v.get? "name" = x, w.get? "name" = y at name
  cases name with
  | none => exact .error _
  | some name =>
    cases name with
    | atom value =>
      cases value with
      | scalar value =>
        cases value with
        | text name =>
          dsimp only
          rw [spec.isNull, spec.isMapping]
          split
          · exact .ok ⟨rfl, h.tree.get "spec"⟩
          · exact .error _
        | _ => exact .error _
      | _ => exact .error _
    | _ => exact .error _

theorem forall₂_records {xs ys : List Value} (h : List.Forall₂ Value.Reordered xs ys) (n : Nat) :
    List.Forall₂ (fun (a b : (Value × Tree) × Nat) =>
      a.1.1.Reordered b.1.1 ∧ a.1.2 = a.1.1.tree ∧ b.1.2 = b.1.1.tree ∧ a.2 = b.2)
      ((xs.zip (xs.map Value.tree)).zipIdx n) ((ys.zip (ys.map Value.tree)).zipIdx n) := by
  induction h generalizing n with
  | nil => exact .nil
  | cons first rest ih => exact .cons ⟨first, rfl, rfl, rfl⟩ (ih (n + 1))

theorem readRecords_reordered {xs ys : List Value} (h : List.Forall₂ Value.Reordered xs ys) :
    Concur (List.Forall₂ AlikeRecords) (readRecords (xs.zip (xs.map Value.tree)))
      (readRecords (ys.zip (ys.map Value.tree))) := by
  refine concur_mapM (fun a b related => ?_) (forall₂_records h 0)
  obtain ⟨⟨v, t⟩, i⟩ := a
  obtain ⟨⟨w, u⟩, j⟩ := b
  obtain ⟨reordered, ht, hu, hi⟩ := related
  dsimp only at reordered ht hu hi ⊢
  subst ht hu hi
  exact readRecord_reordered i reordered

theorem alike_of_lookup {rules others : RuleSet}
    (h : ∀ operand, Option.Rel Tree.Alike ((rules.specs.lookup operand).map OperandSpec.rules)
      ((others.specs.lookup operand).map OperandSpec.rules)) : rules.Alike others := by
  refine Tree.Alike.of_lookup fun operand => ?_
  have there := h operand
  rwa [← lookup_tree, ← lookup_tree] at there

/-- Records in turn make alike rule sets. -/
theorem alike_index {records others : List (String × OperandSpec)}
    (h : List.Forall₂ AlikeRecords records others) {specs specs' : Keyed OperandSpec}
    (hs : Alike { specs } { specs := specs' }) :
    Alike
      { specs := records.foldl (fun specs record => Keyed.insert specs record.1 record.2) specs }
      { specs := others.foldl (fun specs record => Keyed.insert specs record.1 record.2) specs' } :=
    by
  induction h generalizing specs specs' with
  | nil => exact hs
  | cons first rest ih =>
    rename_i record other records others
    rw [List.foldl_cons, List.foldl_cons]
    refine ih (alike_of_lookup fun key => ?_)
    have there := Tree.Alike.lookup hs key
    rw [lookup_tree, lookup_tree] at there
    rw [Keyed.lookup_insert, Keyed.lookup_insert, first.1]
    split
    · exact .some first.2
    · exact there

theorem ofDocument_reordered {v w : Value} (h : v.Reordered w) :
    Concur Alike (ofDocument v v.tree) (ofDocument w w.tree) := by
  have index : ∀ {r s : Except RulesFault (List (String × OperandSpec))},
      Concur (List.Forall₂ AlikeRecords) r s →
      Concur Alike
        (r.map fun named => (⟨named.foldl (fun specs record =>
          Keyed.insert specs record.1 record.2) []⟩ : RuleSet))
        (s.map fun named => ⟨named.foldl (fun specs record =>
          Keyed.insert specs record.1 record.2) []⟩) := by
    intro r s hr
    cases hr with
    | error fault => exact .error fault
    | ok related => exact .ok (alike_index related (.refl _))
  cases h with
  | set turned => exact .error _
  | mapping distinct perm length keys values => exact .error _
  | atom value =>
    cases value with
    | scalar value =>
      cases value with
      | null => exact .ok (.refl _)
      | _ => exact .error _
    | _ => exact .error _
  | sequence length items =>
    rw [Value.tree_sequence, Value.tree_sequence]
    exact index (readRecords_reordered (List.forall₂_iff_get.mpr ⟨length, items⟩))
  | pairs length keys values =>
    unfold ofDocument
    dsimp only
    rw [List.map_const', List.map_const', length]
    exact index (.refl (fun records => List.forall₂_same.mpr fun _ _ => ⟨rfl, .refl _⟩) _)

theorem read_reordered {text other : String}
    (h : Agree (fun first second => first.value.Reordered second.value) (document text)
      (document other)) : Agree Alike (read text) (read other) := by
  rw [read_eq, read_eq]
  refine h.bind fun first second related => ?_
  have rules := ofDocument_reordered related
  generalize ofDocument first.value _ = r, ofDocument second.value _ = s at rules
  cases rules with
  | error fault => exact .fails _
  | ok alike => exact .ok alike

end RuleSet

end TenantSizing
