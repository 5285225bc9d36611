import TenantSizing.Proofs.AssembledNodes
import TenantSizing.Yaml.Value.Document

namespace TenantSizing

namespace Yaml

variable {tokens : List Token}

namespace Merging

variable {start : Nodes} {ref : Ref} {adopted : List (Ref × Ref)}

open Nodes (Grown)

/-- What a mapping merges is taken out of a mapping. -/
theorem takeMerge_cases (ref : Ref) (nodes : Nodes) :
    takeMerge ref nodes = .ok (none, nodes) ∨
      ∃ source entries rest, nodes.content ref = .mapping entries ∧
        takeMerge ref nodes = .ok (some source, nodes.setContent ref (.mapping rest)) := by
  unfold takeMerge
  rw [get_bind_apply]
  cases found : (nodes.entries ref).find? fun entry => nodes.tag entry.1 = .merge with
  | none => exact .inl rfl
  | some entry =>
    right
    cases content : nodes.content ref with
    | mapping entries => exact ⟨_, _, _, rfl, rfl⟩
    | _ => simp [Nodes.entries, content] at found

theorem grown_renamed (entries : List (Ref × Ref)) (nodes : Nodes) :
    Grown tokens nodes (entries.foldl (fun nodes entry =>
      if nodes.tag entry.1 = .value then nodes.setTag entry.1 .str else nodes) nodes) := by
  induction entries generalizing nodes with
  | nil => exact .refl nodes
  | cons entry rest ih =>
    refine Grown.trans ?_ (ih _)
    dsimp only
    split
    · rename_i sign
      exact .setTag sign
    · exact .refl _

theorem guarded_adopt {start nodes : Nodes} (grown : Grown tokens start nodes)
    (h : adopted = [] ∨ ∃ entries, nodes.content ref = .mapping entries) :
    GuardedAt (Grown tokens start) (Blamed tokens) (adopt ref adopted) nodes := by
  have named : Grown tokens nodes _ := grown_renamed (nodes.entries ref) nodes
  show Grown tokens start (if adopted.isEmpty then _ else _)
  split
  · exact grown.trans named
  · rcases h with rfl | mapping
    · contradiction
    · obtain ⟨entries, still⟩ := named.mapping mapping
      exact (grown.trans named).trans (.setContent (still ▸ trivial))

/-- What a node brings is its entries, once its own merge keys are carried out. -/
theorem guarded_brought {merge : Merging Unit}
    (h : Guarded (Grown tokens start) (Blamed tokens) merge) (source : Ref) :
    Guarded (Grown tokens start) (Blamed tokens) (do
      match (← get).content source with
      | .mapping _ =>
        merge
        pure ((← get).entries source)
      | _ => throw .malformed) := by
  refine guarded_get fun nodes grown => ?_
  split
  · refine (h nodes grown).bind fun _ after _ kept => guardedAt_get ?_
    exact guarded_pure _ after kept
  · exact guarded_throw (.inl rfl) nodes grown

theorem guarded_carryOut (fuel : Nat) {start nodes : Nodes} (grown : Grown tokens start nodes)
    (h : adopted = [] ∨ ∃ entries, nodes.content ref = .mapping entries) :
    GuardedAt (Grown tokens start) (Blamed tokens) (carryOut fuel ref adopted) nodes := by
  induction fuel generalizing ref adopted start nodes with
  | zero => exact .inl rfl
  | succ fuel ih =>
    rw [carryOut]
    rcases takeMerge_cases ref nodes with none | ⟨source, entries, rest, content, some⟩
    · exact guardedAt_of_ok none (guarded_adopt grown h)
    · refine guardedAt_of_ok some ?_
      have kept : Grown tokens nodes (nodes.setContent ref (.mapping rest)) :=
        .setContent (content ▸ trivial)
      have mapping := kept.mapping ⟨entries, content⟩
      -- whatever is merged on the way, the mapping is still one when the rest is carried out
      have goes : ∀ more after, Grown tokens (nodes.setContent ref (.mapping rest)) after →
          GuardedAt (Grown tokens start) (Blamed tokens) (carryOut fuel ref (adopted ++ more))
            after := fun more after kept' =>
        ih ((grown.trans kept).trans kept') (.inr (kept'.mapping mapping))
      have own : ∀ {start : Nodes} (source : Ref),
          Guarded (Grown tokens start) (Blamed tokens) (carryOut fuel source []) :=
        fun source nodes grown => ih grown (.inl rfl)
      refine guardedAt_get ?_
      dsimp only
      split
      · refine GuardedAt.bind ?_ fun more after _ => goes more after
        exact guarded_map (guarded_mapM _ fun item => guarded_brought (own item) item) _ (.refl _)
      · refine GuardedAt.bind ?_ fun more after _ => goes more after
        exact guarded_brought (own source) source _ (.refl _)

end Merging

section Atoms

variable {nodes : Nodes} {ref : Ref} {fault : Fault}

/-- A mapping that is told to be a scalar is so by a tag. -/
theorem Told.of_mapping {tag : Tag} {entries : List (Ref × Ref)}
    (h : Told tokens tag (.mapping entries))
    (single : (Layer.empty? tag : Option (Layer Ref)) = none) :
    ∃ name, Names tokens name ∧ (Layer.empty? (Tag.ofName name) : Option (Layer Ref)) = none ∧
      (tag = .ofName name ∨ tag = .str) := by
  cases h with
  | mapping => cases single
  | tagged named => exact ⟨_, named, single, .inl rfl⟩
  | renamed named sign => exact ⟨_, named, by rw [sign]; rfl, .inr rfl⟩

/-- The text of a node is written in the document. -/
theorem text_cases (sound : nodes.Sound tokens) (fuel : Nat) (ref : Ref) :
    match nodes.text fuel ref with
    | .ok text => Writes tokens text
    | .error fault => fault = .malformed ∨ fault = .tooDeep := by
  induction fuel generalizing ref with
  | zero => exact .inr rfl
  | succ fuel ih =>
    rw [Nodes.text]
    cases content : nodes.content ref with
    | scalar text => exact (sound ref).written text content
    | sequence items => exact .inl rfl
    | mapping entries =>
      dsimp only
      cases entries.find? fun entry => nodes.tag entry.1 = .value with
      | some entry => exact ih entry.2
      | none => exact .inl rfl

/-- The text of a mapping is that of its key `=`. -/
theorem signs_of_text {entries : List (Ref × Ref)} (sound : nodes.Sound tokens)
    (content : nodes.content ref = .mapping entries)
    (h : nodes.text (nodes.size + 1) ref ≠ .error .malformed) : Signs tokens := by
  rw [Nodes.text, content] at h
  dsimp only at h
  split at h
  · rename_i entry found
    have sign : nodes.tag entry.1 = .value := by simpa using List.find?_some found
    exact (sign ▸ sound entry.1).signs
  · exact absurd rfl h

/-- Only a mapping leads around in a circle. -/
theorem blamed_text (sound : nodes.Sound tokens)
    (single : (Layer.empty? (nodes.tag ref) : Option (Layer Ref)) = none)
    (h : nodes.text (nodes.size + 1) ref = .error fault) : Blamed tokens fault := by
  have cases := text_cases sound (nodes.size + 1) ref
  rw [h] at cases
  rcases cases with rfl | rfl
  · exact .inl rfl
  cases content : nodes.content ref with
  | scalar text =>
    rw [Nodes.text, content] at h
    cases h
  | sequence items =>
    rw [Nodes.text, content] at h
    cases h
  | mapping entries =>
    obtain ⟨name, named, single, _⟩ := (content ▸ (sound ref).told).of_mapping single
    exact .inr (.circle named single (signs_of_text sound content (h ▸ nofun)))

theorem blamed_value {text : String} (sound : nodes.Sound tokens)
    (single : (Layer.empty? (nodes.tag ref) : Option (Layer Ref)) = none)
    (read : nodes.text (nodes.size + 1) ref = .ok text) (written : Writes tokens text)
    (h : Atom.ofText (nodes.tag ref) text = .error fault) : Blamed tokens fault := by
  rw [Nodes.text] at read
  generalize nodes.tag ref = tag, nodes.content ref = content, (sound ref).told = told at *
  cases told with
  | form there formed =>
    cases read
    exact .inr (.scalar there formed h)
  | tagged named => exact .inr (.tagged named written h)
  | sequence => cases single
  | mapping => cases single
  | _ => cases h

theorem blamed_atom (sound : nodes.Sound tokens)
    (single : (Layer.empty? (nodes.tag ref) : Option (Layer Ref)) = none)
    (h : nodes.atom ref = .error fault) : Blamed tokens fault := by
  unfold Nodes.atom at h
  split at h
  · exact .inl (Except.error.inj h).symm
  · exact .inl (Except.error.inj h).symm
  · exact .inl (Except.error.inj h).symm
  cases read : nodes.text (nodes.size + 1) ref with
  | error stuck =>
    rw [read] at h
    cases h
    exact blamed_text sound single read
  | ok text =>
    have written := text_cases sound (nodes.size + 1) ref
    rw [read] at h written
    dsimp only [bind, Except.bind] at h
    split at h
    · rename_i entries time content
      cases h
      obtain ⟨name, named, _, told | told⟩ := (content ▸ (sound ref).told).of_mapping single
      · refine .inr (.moment named (told.symm.trans time) ?_)
        exact signs_of_text sound content (read ▸ nofun)
      · cases told.symm.trans time
    · exact blamed_value sound single read written h

end Atoms

namespace Fill

/-- Every node of the document is what its tokens say. -/
def Sound (tokens : List Token) (f : Filling) : Prop :=
  f.nodes.Sound tokens

theorem guarded_setLayer (ref : Ref) (layer : Layer Ref) :
    Guarded (Sound tokens) (Blamed tokens) (setLayer ref layer) :=
  guarded_modify fun _ h => h

theorem guarded_begin (ref : Ref) : Guarded (Sound tokens) (Blamed tokens) (begin ref) := by
  unfold begin
  refine guarded_get fun f sound => ?_
  split
  · exact guarded_pure _ f sound
  · split
    · refine Guarded.bind (guarded_setLayer _ _) (fun _ => ?_) f sound
      exact Guarded.bind (guarded_modify fun _ h => h) fun _ => guarded_pure _
    · rename_i scalar
      refine guardedAt_lift (fun fault => blamed_atom sound scalar) fun value _ => ?_
      exact ((guarded_setLayer _ _).bind fun _ => guarded_pure _) f sound

theorem guarded_entries (fuel : Nat) (ref : Ref) :
    Guarded (Sound tokens) (Blamed tokens) (entries fuel ref) := by
  unfold entries
  refine guarded_get fun f sound => ?_
  have merging : GuardedAt (Nodes.Grown tokens f.nodes) (Blamed tokens)
      (Merging.carryOut fuel ref []) f.nodes :=
    Merging.guarded_carryOut fuel (.refl f.nodes) (.inl rfl)
  refine guardedAt_lift (fun fault => merging.error) fun done ended => ?_
  have sound := (merging.ok ended).sound sound
  obtain ⟨_, nodes⟩ := done
  refine guardedAt_set (guarded_foldlM _ (fun entries entry => ?_) [] _ sound)
  refine (guarded_begin _).bind fun layer => ?_
  split
  · exact (guarded_begin _).bind fun _ => guarded_pure _
  · exact guarded_throw (.inl rfl)

theorem guarded_pair (ref : Ref) : Guarded (Sound tokens) (Blamed tokens) (pair ref) := by
  unfold pair
  refine guarded_get fun f sound => ?_
  split
  · refine Guarded.bind (guarded_begin _) (fun _ => ?_) f sound
    exact (guarded_begin _).bind fun _ => guarded_pure _
  · exact guarded_throw (.inl rfl) f sound

theorem guarded_fill (fuel : Nat) (ref : Ref) :
    Guarded (Sound tokens) (Blamed tokens) (fill fuel ref) := by
  unfold fill
  refine guarded_get fun f sound => ?_
  have filled : ∀ layer, Guarded (Sound tokens) (Blamed tokens) (do
      let layer ← pure layer
      setLayer ref layer) := fun layer => Guarded.bind (guarded_pure layer) (guarded_setLayer ref)
  dsimp only
  split
  · exact Guarded.bind (guarded_mapM _ guarded_begin) (fun _ => filled _) f sound
  · exact Guarded.bind (guarded_entries fuel ref) (fun entries => filled _) f sound
  · exact Guarded.bind (guarded_entries fuel ref) (fun entries => filled _) f sound
  · exact Guarded.bind (guarded_mapM _ guarded_pair) (fun _ => filled _) f sound
  · exact Guarded.bind (guarded_mapM _ guarded_pair) (fun _ => filled _) f sound
  · exact Guarded.bind (guarded_throw (.inl rfl)) (guarded_setLayer ref) f sound

theorem guarded_fillAll (fuel depth : Nat) :
    Guarded (Sound tokens) (Blamed tokens) (fillAll fuel depth) := by
  induction depth with
  | zero => exact guarded_pure ()
  | succ depth ih =>
    unfold fillAll
    refine guarded_get fun f sound => guarded_ite (fun _ => ?_) (fun _ => guarded_pure _) f sound
    refine Guarded.bind (guarded_modify fun _ h => h) fun _ => ?_
    exact (guarded_forM _ (guarded_fill fuel)).bind fun _ => ih

end Fill

/-- A text that is no document is malformed, or something in it is to blame. -/
theorem Document.blamed {text : String} {fault : Fault} (h : Document.read text = .error fault) :
    Blamed (Token.ofText text) fault := by
  have assembled := Nodes.ofTokens?_sound (Token.ofText text)
  unfold Document.read at h
  dsimp only at h
  cases found : Nodes.ofTokens? (Token.ofText text) with
  | error stopped =>
    rw [found] at h assembled
    cases h
    exact assembled
  | ok p =>
    rw [found] at h assembled
    obtain ⟨nodes, root⟩ := p
    cases root with
    | none => cases h
    | some root =>
      have filling : Guarded (Fill.Sound (Token.ofText text)) (Blamed (Token.ofText text)) (do
          let _ ← Fill.begin root
          Fill.fillAll ((Token.ofText text).length + 1) (nodes.size + 1)) :=
        (Fill.guarded_begin root).bind fun _ => Fill.guarded_fillAll _ _
      have run := filling { nodes, layers := Array.replicate nodes.size none } assembled
      dsimp only [bind, Except.bind, StateT.run] at h
      split at h
      · rename_i stopped
        cases h
        exact run.error stopped
      · cases h

theorem Atom.floatInSixties_shallow (places : List Binary64) :
    Atom.floatInSixties places ≠ .error .tooDeep := by
  unfold Atom.floatInSixties
  dsimp only
  generalize (Binary64.zero false, 1) = start
  induction places.reverse generalizing start with
  | nil => nofun
  | cons place rest ih =>
    rw [List.foldlM_cons]
    dsimp only [bind, Except.bind]
    split
    · rename_i stopped
      split at stopped
      · cases stopped
        nofun
      · cases stopped
    · exact ih _

/-- No value of a scalar is too deep. -/
theorem Atom.ofText_shallow (tag : Tag) (text : String) :
    Atom.ofText tag text ≠ .error .tooDeep := by
  cases tag with
  | bool => unfold ofText boolOf; grind
  | int => unfold ofText intOf; grind
  | float => 
    have mapped : ∀ (f : Binary64 → Atom) (places : List Binary64),
        f <$> floatInSixties places ≠ .error .tooDeep := fun f places h => by
      cases sum : floatInSixties places with
      | error fault =>
        rw [sum] at h
        cases h
        exact floatInSixties_shallow places sum
      | ok value =>
        rw [sum] at h
        cases h
    unfold ofText floatOf
    grind
  | binary => unfold ofText binaryOf; grind
  | timestamp => unfold ofText timestampOf; grind
  | _ => nofun

/-- A document is read, or fails for another reason, if it is not half as deep as it may be and no
mapping in it stands for a scalar. -/
theorem Document.not_tooDeep {text : String} (readable : .fault .tooDeep ∉ Token.ofText text)
    (unsigned : ¬Signs (Token.ofText text))
    (shallow : ∀ opened, opened <+: Token.ofText text → 2 * nesting opened ≤ maxDepth) :
    Document.read text ≠ .error .tooDeep := by
  intro h
  rcases Document.blamed h with other | blemish
  · cases other
  cases blemish with
  | unreadable stop => exact readable stop
  | deep begun nested => exact Int.not_lt.mpr (shallow _ begun) nested
  | scalar _ _ valueless => exact Atom.ofText_shallow _ _ valueless
  | tagged _ _ valueless => exact Atom.ofText_shallow _ _ valueless
  | circle _ _ signed => exact unsigned signed

end Yaml

end TenantSizing
