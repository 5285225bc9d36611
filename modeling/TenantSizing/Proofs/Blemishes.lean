import TenantSizing.Yaml.Node.Assembly
import TenantSizing.Yaml.Value.Layer
import TenantSizing.Yaml.Value.Scalar

namespace TenantSizing

namespace Yaml

variable {tokens : List Token}

/-- How many more collections are open behind a token. -/
def Token.opens : Token → Int
  | .blockSequenceStart | .blockMappingStart | .flowSequenceStart | .flowMappingStart => 1
  | .blockEnd | .flowSequenceEnd | .flowMappingEnd => -1
  | _ => 0

/-- How many of the collections that begin in some tokens do not end in them. -/
def nesting : List Token → Int
  | [] => 0
  | token :: rest => token.opens + nesting rest

theorem nesting_concat (tokens : List Token) (token : Token) :
    nesting (tokens ++ [token]) = nesting tokens + token.opens := by
  induction tokens with
  | nil => simp [nesting]
  | cons head rest ih =>
    simp only [List.cons_append, nesting, ih]
    omega

/-- A handle stands for a text by itself or by a directive. -/
def Known (tokens : List Token) (handle meaning : String) : Prop :=
  (handle, meaning) ∈ Assemble.defaultHandles ∨ .directive (.tag handle meaning) ∈ tokens

/-- A tag of the document, with what its handle stands for. -/
inductive Names (tokens : List Token) : String → Prop where
  | whole {name : String} (there : .tag none name ∈ tokens) : Names tokens name
  | handled {handle rest meaning : String} (there : .tag (some handle) rest ∈ tokens)
      (known : Known tokens handle meaning) : Names tokens (meaning ++ rest)

/-- The text of a scalar of the document, or of one that is left out. -/
def Writes (tokens : List Token) (text : String) : Prop :=
  text = "" ∨ ∃ plain, .scalar text plain ∈ tokens

/-- Some node is the key `=`, by its form or by a tag. -/
def Signs (tokens : List Token) : Prop :=
  (∃ text plain, .scalar text plain ∈ tokens ∧ plainTag text = .value) ∨
    ∃ name, Names tokens name ∧ Tag.ofName name = .value

/-- What in a document, given by its tokens, brings about a fault other than malformedness. -/
inductive Blemish (tokens : List Token) : Fault → Prop where
  /-- The text is not read to its end. -/
  | unreadable {fault : Fault} (stop : .fault fault ∈ tokens) : Blemish tokens fault
  /-- Collections stand in each other too deep. Every other one may have no tokens of its own. -/
  | deep {opened : List Token} (begun : opened <+: tokens)
      (nested : maxDepth < 2 * nesting opened) : Blemish tokens .tooDeep
  /-- A scalar has the form of a value that it does not have. -/
  | scalar {text : String} {plain : Bool} {fault : Fault} (there : .scalar text plain ∈ tokens)
      (formed : plain = true ∨ Names tokens "!")
      (valueless : Atom.ofText (plainTag text) text = .error fault) : Blemish tokens fault
  /-- A text does not have the value that a tag asks for. -/
  | tagged {name text : String} {fault : Fault} (named : Names tokens name)
      (there : Writes tokens text) (valueless : Atom.ofText (.ofName name) text = .error fault) :
      Blemish tokens fault
  /-- A mapping is told to be a point in time, for which its key `=` cannot stand. -/
  | moment {name : String} (named : Names tokens name) (time : Tag.ofName name = .timestamp)
      (signed : Signs tokens) : Blemish tokens .wrongShape
  /-- A mapping is told to be a scalar, and its key `=` leads around in a circle. -/
  | circle {name : String} (named : Names tokens name)
      (single : (Layer.empty? (Tag.ofName name) : Option (Layer Ref)) = none)
      (signed : Signs tokens) : Blemish tokens .tooDeep

def Blamed (tokens : List Token) (fault : Fault) : Prop :=
  fault = .malformed ∨ Blemish tokens fault

/-- A node has the tag of its form, or the one in front of it. A key `=` becomes a text. -/
inductive Told (tokens : List Token) : Tag → Content → Prop where
  | text {text : String} : Told tokens .str (.scalar text)
  | null {text : String} : Told tokens .null (.scalar text)
  | form {text : String} {plain : Bool} (there : .scalar text plain ∈ tokens)
      (formed : plain = true ∨ Names tokens "!") : Told tokens (plainTag text) (.scalar text)
  | sequence {items : List Ref} : Told tokens .seq (.sequence items)
  | mapping {entries : List (Ref × Ref)} : Told tokens .map (.mapping entries)
  | tagged {name : String} {content : Content} (named : Names tokens name) :
      Told tokens (.ofName name) content
  | renamed {name : String} {content : Content} (named : Names tokens name)
      (sign : Tag.ofName name = .value) : Told tokens .str content

theorem Told.given {tag : Option String} {fallback : Tag} {content : Content}
    (h : Told tokens fallback content) (named : ∀ name ∈ tag, Names tokens name) :
    Told tokens (Assemble.givenTag tag fallback) content := by
  unfold Assemble.givenTag
  split
  · exact h
  · exact h
  · rename_i name _
    exact .tagged (named name rfl)

/-- Contents of one kind; scalars have the same text. -/
def Content.Alike : Content → Content → Prop
  | .scalar text, .scalar other => text = other
  | .sequence _, .sequence _ => True
  | .mapping _, .mapping _ => True
  | _, _ => False

theorem Content.Alike.refl (content : Content) : content.Alike content := by
  cases content <;> simp [Content.Alike]

theorem Content.Alike.symm {a b : Content} (h : a.Alike b) : b.Alike a := by
  cases a <;> cases b <;> simp_all [Content.Alike]

theorem Content.Alike.trans {a b c : Content} (h : a.Alike b) (h' : b.Alike c) : a.Alike c := by
  cases a <;> cases b <;> cases c <;> simp_all [Content.Alike]

/-- What the tokens have to do with a node: its tag, and its text if it is a scalar. -/
structure Stated (tokens : List Token) (tag : Tag) (content : Content) : Prop where
  told : Told tokens tag content
  written : ∀ text, content = .scalar text → Writes tokens text

theorem Stated.alike {a b : Content} {tag : Tag} (h : Stated tokens tag a) (same : a.Alike b) :
    Stated tokens tag b := by
  obtain ⟨told, written⟩ := h
  have texts : ∀ text, b = .scalar text → a = .scalar text := by
    rintro text rfl
    cases a with
    | scalar other => rw [show other = text from same]
    | _ => cases same
  refine ⟨?_, fun text hb => written text (texts text hb)⟩
  cases told with
  | tagged named => exact .tagged named
  | renamed named sign => exact .renamed named sign
  | text => cases b <;> first | exact .text | cases same
  | null => cases b <;> first | exact .null | cases same
  | form there formed =>
    cases b with
    | scalar other =>
      obtain rfl : _ = other := same
      exact .form there formed
    | _ => cases same
  | sequence => cases b <;> first | exact .sequence | cases same
  | mapping => cases b <;> first | exact .mapping | cases same

/-- A node that is the key `=` may as well be a text. -/
theorem Stated.renamed {content : Content} (h : Stated tokens .value content) :
    Stated tokens .str content := by
  refine ⟨?_, h.written⟩
  generalize he : Tag.value = tag at h
  cases h.told with
  | form there formed => exact .text
  | tagged named => exact .renamed named he.symm
  | _ => cases he

theorem Stated.signs {content : Content} (h : Stated tokens .value content) : Signs tokens := by
  generalize he : Tag.value = tag at h
  cases h.told with
  | form there formed => exact .inl ⟨_, _, there, he.symm⟩
  | tagged named => exact .inr ⟨_, named, he.symm⟩
  | _ => cases he

namespace Nodes

variable {nodes : Nodes}

theorem tag_push (node : Node) (ref : Ref) :
    Nodes.tag (nodes.push node) ref = if ref = nodes.size then node.tag else nodes.tag ref := by
  unfold Nodes.tag
  rw [Array.getElem?_push]
  split <;> rfl

theorem content_push (node : Node) (ref : Ref) :
    Nodes.content (nodes.push node) ref =
      if ref = nodes.size then node.content else nodes.content ref := by
  unfold Nodes.content
  rw [Array.getElem?_push]
  split <;> rfl

theorem tag_setContent (ref other : Ref) (content : Content) :
    (nodes.setContent ref content).tag other = nodes.tag other := by
  unfold Nodes.tag Nodes.setContent
  rw [Array.getElem?_modify]
  split
  · cases nodes[other]? <;> rfl
  · rfl

theorem content_setContent (ref other : Ref) (content : Content) :
    (nodes.setContent ref content).content other =
      if ref = other ∧ other < nodes.size then content else nodes.content other := by
  unfold Nodes.content Nodes.setContent
  rw [Array.getElem?_modify]
  by_cases here : ref = other
  · by_cases bound : other < nodes.size
    · simp [here, bound]
    · simp [here, bound]
  · simp [here]

theorem tag_setTag (ref other : Ref) (tag : Tag) :
    (nodes.setTag ref tag).tag other =
      if ref = other ∧ other < nodes.size then tag else nodes.tag other := by
  unfold Nodes.tag Nodes.setTag
  rw [Array.getElem?_modify]
  by_cases here : ref = other
  · by_cases bound : other < nodes.size
    · simp [here, bound]
    · simp [here, bound]
  · simp [here]

theorem content_setTag (ref other : Ref) (tag : Tag) :
    (nodes.setTag ref tag).content other = nodes.content other := by
  unfold Nodes.content Nodes.setTag
  rw [Array.getElem?_modify]
  split
  · cases nodes[other]? <;> rfl
  · rfl

/-- Every node is what the tokens say. -/
def Sound (tokens : List Token) (nodes : Nodes) : Prop :=
  ∀ ref, Stated tokens (nodes.tag ref) (nodes.content ref)

theorem sound_nil : Sound tokens #[] :=
  fun _ => ⟨.null, fun _ he => .inl (Content.scalar.inj he).symm⟩

/-- Nodes that come from others: those of before keep their kinds, and all are still what the tokens
say. -/
structure Grown (tokens : List Token) (before after : Nodes) : Prop where
  size : before.size ≤ after.size
  alike : ∀ ref < before.size, (before.content ref).Alike (after.content ref)
  sound : Sound tokens before → Sound tokens after

variable {before middle after : Nodes}

theorem Grown.refl (nodes : Nodes) : Grown tokens nodes nodes :=
  ⟨Nat.le_refl _, fun _ _ => .refl _, id⟩

theorem Grown.trans (h : Grown tokens before middle) (h' : Grown tokens middle after) :
    Grown tokens before after := by
  refine ⟨Nat.le_trans h.size h'.size, fun ref hr => ?_, fun sound => h'.sound (h.sound sound)⟩
  exact (h.alike ref hr).trans (h'.alike ref (Nat.lt_of_lt_of_le hr h.size))

theorem Grown.push {tag : Tag} {content : Content} (h : Stated tokens tag content) :
    Grown tokens nodes (nodes.push { tag, content }) := by
  refine ⟨by simp, fun ref hr => ?_, fun sound ref => ?_⟩
  · rw [content_push, if_neg (Nat.ne_of_lt hr)]
    exact .refl _
  · rw [tag_push, content_push]
    split
    · exact h
    · exact sound ref

theorem Grown.setContent {ref : Ref} {content : Content} (h : (nodes.content ref).Alike content) :
    Grown tokens nodes (nodes.setContent ref content) := by
  refine ⟨by simp [Nodes.setContent], fun other _ => ?_, fun sound other => ?_⟩
  · rw [content_setContent]
    split
    · rename_i here
      exact here.1 ▸ h
    · exact .refl _
  · rw [tag_setContent, content_setContent]
    split
    · rename_i here
      exact here.1 ▸ (sound ref).alike h
    · exact sound other

theorem Grown.mapping {ref : Ref} (h : Grown tokens before after)
    (hm : ∃ entries, before.content ref = .mapping entries) :
    ∃ entries, after.content ref = .mapping entries := by
  obtain ⟨entries, hm⟩ := hm
  have bound : ref < before.size := by
    refine Nat.lt_of_not_le fun beyond => ?_
    have absent : before[ref]? = none := Array.getElem?_eq_none beyond
    simp [Nodes.content, absent] at hm
  have alike := h.alike ref bound
  rw [hm] at alike
  cases filled : after.content ref with
  | mapping entries => exact ⟨entries, rfl⟩
  | _ =>
    rw [filled] at alike
    cases alike

theorem Grown.setTag {ref : Ref} (h : nodes.tag ref = .value) :
    Grown tokens nodes (nodes.setTag ref .str) := by
  refine ⟨by simp [Nodes.setTag], fun other _ => ?_, fun sound other => ?_⟩
  · rw [content_setTag]
    exact .refl _
  · rw [tag_setTag, content_setTag]
    split
    · rename_i here
      have sign := sound ref
      rw [h] at sign
      exact here.1 ▸ sign.renamed
    · exact sound other

end Nodes

end Yaml

end TenantSizing
