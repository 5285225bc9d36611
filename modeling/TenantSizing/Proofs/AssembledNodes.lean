import TenantSizing.Proofs.Blemishes
import TenantSizing.Proofs.GuardedWork
import TenantSizing.Proofs.Trees

namespace TenantSizing

namespace Yaml

namespace Assemble

variable {α : Type} {tokens : List Token} {start : Nodes} {anchor tag : Option String}
  {depth : Nat} {level before middle after : Int} {ahead : Option Token}

/-- A place in a document that is being assembled, in the collections that are open there by their
tokens. The nodes have come behind those at the start. -/
structure Reached (tokens : List Token) (start : Nodes) (depth : Nat) (level : Int)
    (a : Assembly) : Prop where
  passed : ∃ passed, passed ++ a.tokens = tokens ∧ nesting passed = level
  depth : a.depth = depth
  handles : ∀ entry ∈ a.handles, Known tokens entry.1 entry.2
  nodes : Nodes.Grown tokens start a.nodes

theorem Reached.left {a : Assembly} (h : Reached tokens start depth level a) :
    ∀ token ∈ a.tokens, token ∈ tokens := by
  obtain ⟨passed, rfl, _⟩ := h.passed
  exact fun token ht => List.mem_append_right passed ht

theorem Reached.begun {a : Assembly} (h : Reached tokens start depth level a) :
    ∃ opened, opened <+: tokens ∧ nesting opened = level := by
  obtain ⟨passed, rfl, open_⟩ := h.passed
  exact ⟨passed, List.prefix_append passed _, open_⟩

theorem Reached.drop {a : Assembly} {token : Token} (h : Reached tokens start depth before a)
    (next : a.tokens.head? = some token) (step : before + token.opens = after) :
    Reached tokens start depth after { a with tokens := a.tokens.tail } := by
  obtain ⟨passed, whole, rfl⟩ := h.passed
  obtain ⟨rest, he⟩ := List.head?_eq_some_iff.mp next
  refine ⟨⟨passed ++ [token], ?_, ?_⟩, h.depth, h.handles, h.nodes⟩
  · rw [← whole, he, List.append_assoc]
    rfl
  · rw [nesting_concat, step]

/-- Work that leads from one level of a document to another, with one token possibly known to be
ahead. -/
def Runs (tokens : List Token) (depth : Nat) (ahead : Option Token) (before after : Int)
    (work : Assemble α) : Prop :=
  ∀ start a, Reached tokens start depth before a →
    (∀ token ∈ ahead, a.tokens.head? = some token) →
    GuardedAt (Reached tokens start depth after) (Blamed tokens) work a

theorem Runs.unseen {work : Assemble α} (h : Runs tokens depth none before after work) :
    Runs tokens depth ahead before after work :=
  fun start a reached _ => h start a reached nofun

theorem Runs.bind {β : Type} {work : Assemble α} {next : α → Assemble β}
    (h : Runs tokens depth ahead before middle work)
    (hn : ∀ a, Runs tokens depth none middle after (next a)) :
    Runs tokens depth ahead before after (work >>= next) :=
  fun start a reached seen =>
    (h start a reached seen).bind fun b _ _ reached => hn b start _ reached nofun

theorem runs_pure (a : α) : Runs tokens depth ahead level level (pure a : Assemble α) :=
  fun _ _ reached _ => reached

theorem runs_stop : Runs tokens depth ahead before after (stop : Assemble α) :=
  fun _ _ _ _ => .inl rfl

theorem runs_stop_bind {β : Type} {next : β → Assemble α} :
    Runs tokens depth ahead before after ((stop : Assemble β) >>= next) :=
  fun _ _ _ _ => .inl rfl

theorem runs_ite {p : Prop} [Decidable p] {yes no : Assemble α}
    (hy : p → Runs tokens depth ahead before after yes)
    (hn : ¬p → Runs tokens depth ahead before after no) :
    Runs tokens depth ahead before after (if p then yes else no) := by
  split
  · rename_i h
    exact hy h
  · rename_i h
    exact hn h

theorem runs_get {next : Assembly → Assemble α}
    (h : ∀ a, Runs tokens depth ahead before after (next a)) :
    Runs tokens depth ahead before after (get >>= next) :=
  fun start a => h a start a

theorem peek_eq (a : Assembly) : peek a = match a.tokens with
    | .fault fault :: _ => .error fault
    | token :: _ => .ok (token, a)
    | [] => .error .malformed := by
  obtain ⟨left, nodes, anchors, handles, depth⟩ := a
  cases left with
  | nil => rfl
  | cons token rest => cases token <;> rfl

/-- A token that is seen is one of the document, and ahead. -/
theorem runs_peek {next : Token → Assemble α}
    (h : ∀ token ∈ tokens, Runs tokens depth (some token) before after (next token)) :
    Runs tokens depth ahead before after (peek >>= next) := by
  intro start a reached _
  have still : GuardedAt (fun b => b = a) (Blamed tokens) peek a := by
    unfold GuardedAt
    rw [peek_eq]
    cases he : a.tokens with
    | nil => exact .inl rfl
    | cons token rest =>
      cases token with
      | fault fault => exact .inr (.unreadable (reached.left _ (by simp [he])))
      | _ => rfl
  refine still.bind fun token b seen same => ?_
  subst same
  have next : b.tokens.head? = some token := by
    rw [peek_eq] at seen
    split at seen
    · cases seen
    · rename_i he
      cases seen
      rw [he, List.head?_cons]
    · cases seen
  refine h token (reached.left token (List.mem_of_head? next)) start b reached ?_
  rintro _ ⟨⟩
  exact next

theorem runs_drop {token : Token} (step : before + token.opens = after) :
    Runs tokens depth (some token) before after drop :=
  fun _ _ reached seen => reached.drop (seen token rfl) step

theorem runs_accept {token : Token} {next : Bool → Assemble α}
    (step : before + token.opens = middle)
    (yes : Runs tokens depth none middle after (next true))
    (no : Runs tokens depth none before after (next false)) :
    Runs tokens depth ahead before after (accept token >>= next) := by
  unfold accept
  rw [bind_assoc]
  refine runs_peek fun seen _ => ?_
  split
  · rename_i same
    rw [bind_assoc]
    refine (runs_drop (same ▸ step)).bind fun _ => ?_
    rw [pure_bind]
    exact yes
  · rw [pure_bind]
    exact no.unseen

theorem runs_expect {token : Token} {next : Assemble α} (step : before + token.opens = middle)
    (h : Runs tokens depth none middle after next) :
    Runs tokens depth ahead before after (do
      if !(← accept token) then stop
      next) := by
  refine runs_accept step ?_ ?_
  · exact h
  · exact runs_stop_bind

theorem runs_sees (ends : List Token) : Runs tokens depth ahead level level (sees ends) := by
  unfold sees
  exact runs_peek fun next _ => runs_pure _

theorem add_cases (anchor : Option String) (tag : Tag) (content : Content) (a : Assembly) :
    add anchor tag content a = .error .malformed ∨
      ∃ anchors, add anchor tag content a =
        .ok (a.nodes.size, { a with nodes := a.nodes.push { tag, content }, anchors }) := by
  unfold add
  cases anchor with
  | none => exact .inr ⟨_, rfl⟩
  | some name =>
    by_cases taken : Keyed.has a.anchors name = true
    · left
      show (if Keyed.has a.anchors name = true then _ else _ : Assemble Ref) a = _
      rw [if_pos taken]
      rfl
    · right
      refine ⟨Keyed.insert a.anchors name a.nodes.size, ?_⟩
      show (if Keyed.has a.anchors name = true then _ else _ : Assemble Ref) a = _
      rw [if_neg taken]
      rfl

theorem runs_add {tag : Tag} {content : Content} (h : Stated tokens tag content) :
    Runs tokens depth ahead level level (add anchor tag content) := by
  intro start a reached _
  unfold GuardedAt
  rcases add_cases anchor tag content a with stopped | ⟨anchors, added⟩
  · rw [stopped]
    exact .inl rfl
  · rw [added]
    exact ⟨reached.passed, reached.depth, reached.handles, reached.nodes.trans (.push h)⟩

theorem stated_empty {tag : Tag} (h : Told tokens tag (.scalar "")) :
    Stated tokens tag (.scalar "") :=
  ⟨h, fun _ he => .inl (Content.scalar.inj he).symm⟩

theorem runs_absent : Runs tokens depth ahead level level absent :=
  runs_add (stated_empty .null)

theorem runs_empty (named : ∀ name ∈ tag, Names tokens name) :
    Runs tokens depth ahead level level (empty anchor tag) := by
  unfold empty
  exact runs_ite (fun _ => runs_stop) fun _ => runs_add (stated_empty (Told.null.given named))

/-- A collection is there before what it holds, and stays where it is. As collections without tokens
stand right in others only, there are at most twice as many as the tokens tell. -/
theorem runs_collection {β : Type} {tag : Tag} (wrap : List β → Content)
    (stated : ∀ items, Stated tokens tag (wrap items))
    (alike : ∀ items more, (wrap items).Alike (wrap more)) {contents : Assemble (List β)}
    (room : (depth : Int) < 2 * before)
    (hc : Runs tokens (depth + 1) none before after contents) :
    Runs tokens depth ahead before after (collection anchor tag (wrap []) (wrap <$> contents)) := by
  intro start a reached seen
  unfold collection
  have adds : Runs tokens depth none before before (add anchor tag (wrap [])) :=
    runs_add (stated [])
  refine GuardedAt.bind (adds start a reached nofun) fun ref a₁ added there => ?_
  rcases add_cases anchor tag (wrap []) a with stopped | ⟨anchors, begun⟩
  · rw [stopped] at added
    cases added
  rw [begun] at added
  cases added
  refine guardedAt_get ?_
  dsimp only
  split
  · rename_i deep
    obtain ⟨opened, begun, open_⟩ := there.begun
    refine Or.inr (.deep begun ?_)
    have := reached.depth
    omega
  refine guardedAt_modify ?_
  rw [bind_map_left]
  have inner : Reached tokens (a.nodes.push { tag, content := wrap [] }) (depth + 1) before
      { a with nodes := a.nodes.push { tag, content := wrap [] }, anchors, depth := a.depth + 1 } :=
    ⟨reached.passed, by rw [reached.depth], reached.handles, .refl _⟩
  refine GuardedAt.bind (hc _ _ inner nofun) fun items a₂ _ inside => ?_
  have bound : a.nodes.size < Array.size (a.nodes.push { tag, content := wrap [] }) := by simp
  have held := inside.nodes.alike _ bound
  rw [Nodes.content_push, if_pos rfl] at held
  refine guardedAt_modify ⟨inside.passed, reached.depth, inside.handles, ?_⟩
  exact (reached.nodes.trans (.push (stated []))).trans
    (inside.nodes.trans (.setContent (held.symm.trans (alike [] items))))

theorem runs_sequence (named : ∀ name ∈ tag, Names tokens name) {items : Assemble (List Ref)}
    (room : (depth : Int) < 2 * before) (h : Runs tokens (depth + 1) none before after items) :
    Runs tokens depth ahead before after (sequence anchor tag items) :=
  runs_collection Content.sequence (fun _ => ⟨Told.sequence.given named, nofun⟩)
    (fun _ _ => trivial) room h

theorem runs_mapping (named : ∀ name ∈ tag, Names tokens name)
    {entries : Assemble (List (Ref × Ref))} (room : (depth : Int) < 2 * before)
    (h : Runs tokens (depth + 1) none before after entries) :
    Runs tokens depth ahead before after (mapping anchor tag entries) :=
  runs_collection Content.mapping (fun _ => ⟨Told.mapping.given named, nofun⟩)
    (fun _ _ => trivial) room h

theorem runs_tagName {handle : Option String} {rest : String}
    (there : .tag handle rest ∈ tokens) {next : String → Assemble α}
    (hn : ∀ name, Names tokens name → Runs tokens depth none before after (next name)) :
    Runs tokens depth none before after (tagName handle rest >>= next) := by
  unfold tagName
  cases handle with
  | none => exact hn rest (.whole there)
  | some handle =>
    intro start a reached seen
    dsimp only
    rw [bind_assoc]
    refine guardedAt_get ?_
    cases known : a.handles.lookup handle with
    | none => exact .inl rfl
    | some meaning =>
      refine hn _ (.handled there ?_) start a reached seen
      exact reached.handles _ (Keyed.mem_of_lookup known)

theorem runs_properties {next : Option String × Option String → Assemble α}
    (hn : ∀ anchor tag, (∀ name ∈ tag, Names tokens name) →
      Runs tokens depth none level level (next (anchor, tag))) :
    Runs tokens depth ahead level level (properties >>= next) := by
  unfold properties
  have tagged : ∀ anchor handle rest, .tag handle rest ∈ tokens →
      Runs tokens depth none level level
        (tagName handle rest >>= fun name => next (anchor, some name)) := by
    intro anchor handle rest there
    refine runs_tagName there fun name named => hn anchor (some name) ?_
    rintro _ ⟨⟩
    exact named
  rw [bind_assoc]
  refine runs_peek fun token there => ?_
  split
  · rw [bind_assoc]
    refine (runs_drop (Int.add_zero _)).bind fun _ => ?_
    rw [bind_assoc]
    refine runs_peek fun token there => ?_
    split
    · rw [bind_assoc]
      refine (runs_drop (Int.add_zero _)).bind fun _ => ?_
      rw [bind_assoc]
      exact tagged _ _ _ there
    · exact (hn _ none nofun).unseen
  · rw [bind_assoc]
    refine (runs_drop (Int.add_zero _)).bind fun _ => ?_
    rw [bind_assoc]
    refine runs_peek fun token _ => ?_
    split
    · rw [bind_assoc]
      refine (runs_drop (Int.add_zero _)).bind fun _ => ?_
      rw [bind_assoc]
      exact tagged _ _ _ there
    · rw [bind_assoc]
      exact (tagged _ _ _ there).unseen
  · exact (hn none none nofun).unseen

/-- Where a node may stand. A collection without tokens of its own stands right in one that has
some. -/
def Place.Fits (depth : Nat) (level : Int) : Place → Prop
  | .blockValue => (depth : Int) < 2 * level
  | _ => (depth : Int) ≤ 2 * level

theorem Place.Fits.le {place : Place} (h : place.Fits depth level) : (depth : Int) ≤ 2 * level := by
  cases place with
  | blockValue => exact Int.le_of_lt h
  | _ => exact h

theorem Place.fits_of_lt (place : Place) (h : (depth : Int) < 2 * level) :
    place.Fits depth level := by
  cases place with
  | blockValue => exact h
  | _ => exact Int.le_of_lt h

/-- The parts of a document as far as some fuel reads them. The end of a collection is read by what
reads its contents. -/
structure Parts (tokens : List Token) (fuel : Nat) : Prop where
  node : ∀ {depth : Nat} {level : Int} {place : Place}, place.Fits depth level →
    Runs tokens depth none level level (node place fuel)
  optional : ∀ {depth : Nat} {level : Int} {place : Place} ends, place.Fits depth level →
    Runs tokens depth none level level (optional place ends fuel)
  blockItems : ∀ {depth : Nat} {level : Int} items, (depth : Int) < 2 * (level + 1) →
    Runs tokens depth none (level + 1) level (blockItems fuel items)
  indentless : ∀ {depth : Nat} {level : Int} items, (depth : Int) ≤ 2 * level →
    Runs tokens depth none level level (indentless fuel items)
  blockEntries : ∀ {depth : Nat} {level : Int} entries, (depth : Int) < 2 * (level + 1) →
    Runs tokens depth none (level + 1) level (blockEntries fuel entries)
  flowItems : ∀ {depth : Nat} {level : Int} items, (depth : Int) < 2 * (level + 1) →
    Runs tokens depth none (level + 1) level (flowItems fuel items)
  flowEntries : ∀ {depth : Nat} {level : Int} entries, (depth : Int) < 2 * (level + 1) →
    Runs tokens depth none (level + 1) level (flowEntries fuel entries)

namespace Parts

variable {fuel : Nat} {place : Place}

theorem zero : Parts tokens 0 := by
  constructor <;> intros <;> exact runs_stop

/-- A collection with tokens of its own may stand anywhere. -/
theorem room (h : (depth : Int) ≤ 2 * level) :
    (depth : Int) < 2 * (level + 1) ∧ ((depth + 1 : Nat) : Int) < 2 * (level + 1) := by
  omega

theorem node_succ (h : Parts tokens fuel) (fits : place.Fits depth level) :
    Runs tokens depth none level level (Assemble.node place (fuel + 1)) := by
  obtain ⟨outside, inside⟩ := room fits.le
  rw [Assemble.node]
  refine runs_peek fun token ht => ?_
  split
  · refine (runs_drop (Int.add_zero _)).bind fun _ => runs_get fun a => ?_
    split
    · exact runs_pure _
    · exact runs_stop
  · refine runs_properties fun anchor tag named => runs_peek fun token ht => ?_
    dsimp only
    -- A sequence need not be indented below a key. It has no token of its own then.
    refine runs_ite (fun unindented => ?_) fun _ => ?_
    · have value : place = .blockValue := by
        simp only [Bool.and_eq_true, decide_eq_true_eq] at unindented
        exact unindented.1
      subst value
      have fits : (depth : Int) < 2 * level := fits
      exact runs_sequence named fits (h.indentless [] fits)
    split
    · rename_i text plain _
      refine (runs_drop (Int.add_zero _)).bind fun _ => runs_add ⟨?_, ?_⟩
      · split
        · rename_i formed
          refine .form ht ?_
          rcases Bool.or_eq_true _ _ ▸ formed with bare | bang
          · exact .inl (Bool.and_eq_true _ _ ▸ bare).1
          · exact .inr (named "!" (by simpa using bang))
        · exact Told.text.given named
      · rintro _ ⟨⟩
        exact .inr ⟨plain, ht⟩
    · exact (runs_drop rfl).bind fun _ => runs_sequence named outside (h.flowItems [] inside)
    · exact (runs_drop rfl).bind fun _ => runs_mapping named outside (h.flowEntries [] inside)
    · refine runs_ite (fun _ => runs_empty named) fun _ => ?_
      exact (runs_drop rfl).bind fun _ => runs_sequence named outside (h.blockItems [] inside)
    · refine runs_ite (fun _ => runs_empty named) fun _ => ?_
      exact (runs_drop rfl).bind fun _ => runs_mapping named outside (h.blockEntries [] inside)
    · exact runs_empty named

theorem optional_succ (h : Parts tokens fuel) (ends : List Token) (fits : place.Fits depth level) :
    Runs tokens depth none level level (Assemble.optional place ends (fuel + 1)) := by
  rw [Assemble.optional]
  refine (runs_sees ends).bind fun seen => ?_
  exact runs_ite (fun _ => runs_absent) fun _ => h.node fits

theorem blockItems_succ (h : Parts tokens fuel) (items : List Ref)
    (inside : (depth : Int) < 2 * (level + 1)) :
    Runs tokens depth none (level + 1) level (Assemble.blockItems (fuel + 1) items) := by
  rw [Assemble.blockItems]
  refine runs_accept (Int.add_zero _) ?_ (runs_accept (Int.add_neg_cancel_right _ _) ?_ ?_)
  · exact (h.optional _ (Place.fits_of_lt .block inside)).bind fun item => h.blockItems _ inside
  · exact runs_pure _
  · exact runs_stop

theorem indentless_succ (h : Parts tokens fuel) (items : List Ref)
    (inside : (depth : Int) ≤ 2 * level) :
    Runs tokens depth none level level (Assemble.indentless (fuel + 1) items) := by
  rw [Assemble.indentless]
  refine runs_accept (Int.add_zero _) ?_ (runs_pure _)
  have fits : Place.block.Fits depth level := inside
  exact (h.optional _ fits).bind fun item => h.indentless _ inside

/-- The value behind a key may be left out. -/
theorem runs_value (h : Parts tokens fuel) (ends : List Token) {next : Ref → Assemble α}
    (fits : place.Fits depth before)
    (hn : ∀ value, Runs tokens depth none before after (next value)) :
    Runs tokens depth none before after (do
      let value ← if ← accept .value then Assemble.optional place ends fuel else absent
      next value) :=
  runs_accept (Int.add_zero _) ((h.optional ends fits).bind hn) (runs_absent.bind hn)

/-- Items of a flow collection stand behind commas, but for the first one. -/
theorem runs_separated {inside : Bool} {next : Assemble α}
    (hn : Runs tokens depth none before after next) :
    Runs tokens depth none before after (do
      if inside then
        if !(← accept .flowEntry) then stop
      next) := by
  dsimp only
  exact runs_ite (fun _ => runs_expect (Int.add_zero _) hn) fun _ => hn

theorem blockEntries_succ (h : Parts tokens fuel) (entries : List (Ref × Ref))
    (inside : (depth : Int) < 2 * (level + 1)) :
    Runs tokens depth none (level + 1) level (Assemble.blockEntries (fuel + 1) entries) := by
  have fits : Place.blockValue.Fits depth (level + 1) := inside
  rw [Assemble.blockEntries]
  refine runs_accept (Int.add_zero _) ?_ (runs_accept (Int.add_neg_cancel_right _ _) ?_ ?_)
  · refine (h.optional _ fits).bind fun key => ?_
    exact h.runs_value _ fits fun value => h.blockEntries _ inside
  · exact runs_pure _
  · exact runs_stop

theorem flowItems_succ (h : Parts tokens fuel) (items : List Ref)
    (inside : (depth : Int) < 2 * (level + 1)) :
    Runs tokens depth none (level + 1) level (Assemble.flowItems (fuel + 1) items) := by
  have fits : Place.flow.Fits depth (level + 1) := Int.le_of_lt inside
  have deeper : Place.flow.Fits (depth + 1) (level + 1) := inside
  rw [Assemble.flowItems]
  refine runs_accept (Int.add_neg_cancel_right _ _) (runs_pure _) (runs_separated ?_)
  refine runs_accept (Int.add_zero _) ?_ (runs_accept (Int.add_neg_cancel_right _ _) ?_ ?_)
  · refine Runs.bind (runs_mapping (by simp) inside ((h.optional _ deeper).bind fun key => ?_))
      fun item => h.flowItems _ inside
    exact h.runs_value _ deeper fun value => runs_pure _
  · exact runs_pure _
  · exact (h.node fits).bind fun item => h.flowItems _ inside

theorem flowEntries_succ (h : Parts tokens fuel) (entries : List (Ref × Ref))
    (inside : (depth : Int) < 2 * (level + 1)) :
    Runs tokens depth none (level + 1) level (Assemble.flowEntries (fuel + 1) entries) := by
  have fits : Place.flow.Fits depth (level + 1) := Int.le_of_lt inside
  rw [Assemble.flowEntries]
  refine runs_accept (Int.add_neg_cancel_right _ _) (runs_pure _) (runs_separated ?_)
  refine runs_accept (Int.add_zero _) ?_ (runs_accept (Int.add_neg_cancel_right _ _) ?_ ?_)
  · refine (h.optional _ fits).bind fun key => ?_
    exact h.runs_value _ fits fun value => h.flowEntries _ inside
  · exact runs_pure _
  · exact (h.node fits).bind fun key => runs_absent.bind fun value => h.flowEntries _ inside

end Parts

theorem parts : ∀ fuel, Parts tokens fuel
  | 0 => .zero
  | fuel + 1 =>
    have h := parts fuel
    { node := h.node_succ
      optional := h.optional_succ
      blockItems := h.blockItems_succ
      indentless := h.indentless_succ
      blockEntries := h.blockEntries_succ
      flowItems := h.flowItems_succ
      flowEntries := h.flowEntries_succ }

theorem runs_directives (fuel : Nat) (versioned : Bool) {handles : Keyed String}
    (known : ∀ entry ∈ handles, Known tokens entry.1 entry.2)
    {next : Keyed String → Assemble α}
    (hn : ∀ handles, (∀ entry ∈ handles, Known tokens entry.1 entry.2) →
      Runs tokens depth none level level (next handles)) :
    Runs tokens depth ahead level level (directives fuel versioned handles >>= next) := by
  induction fuel generalizing versioned handles ahead with
  | zero => exact runs_stop_bind
  | succ fuel ih =>
    rw [directives, bind_assoc]
    refine runs_peek fun token there => ?_
    split
    · rw [bind_assoc]
      refine (runs_drop (Int.add_zero _)).bind fun _ => ?_
      split
      · exact runs_stop_bind
      · exact ih true known
    · rename_i handle uri
      rw [bind_assoc]
      refine (runs_drop (Int.add_zero _)).bind fun _ => ?_
      split
      · exact runs_stop_bind
      · refine ih versioned fun entry he => ?_
        rcases List.mem_append.mp he with old | new
        · exact known entry old
        · rw [List.mem_singleton.mp new]
          exact .inr there
    · rw [bind_assoc]
      exact (runs_drop (Int.add_zero _)).bind fun _ => ih versioned known
    · rw [pure_bind]
      refine (hn _ fun entry he => ?_).unseen
      rcases List.mem_append.mp he with old | new
      · exact known entry old
      · exact .inl (Keyed.mem_without.mp new).1

theorem runs_skipDocumentEnds (fuel : Nat) :
    Runs tokens depth ahead level level (skipDocumentEnds fuel) := by
  induction fuel generalizing ahead with
  | zero => exact runs_stop
  | succ fuel ih =>
    rw [skipDocumentEnds]
    exact runs_accept (Int.add_zero _) ih (runs_pure _)

theorem runs_document (fuel : Nat) : Runs tokens 0 none 0 0 (document fuel) := by
  have node : Runs tokens 0 none 0 0 (node .block fuel) := (parts fuel).node (Int.le_refl 0)
  unfold document
  refine runs_peek fun first _ => ?_
  split
  · exact runs_pure none
  · dsimp only
    have ended : ∀ root : Ref, Runs tokens 0 none 0 0 (do
        skipDocumentEnds fuel
        if ← accept .streamEnd then pure (some root)
        else
          let _ ← directives fuel false []
          stop) := fun root => by
      refine (runs_skipDocumentEnds fuel).bind fun _ => ?_
      refine runs_accept (Int.add_zero _) (runs_pure _) ?_
      exact runs_directives _ _ (by simp) fun _ _ => runs_stop
    refine runs_ite (fun _ => ?_) fun _ => node.unseen.bind ended
    refine runs_directives _ _ (by simp) fun handles known => ?_
    have handled : Runs tokens 0 none 0 0 (modify fun a => { a with handles }) :=
      fun start a reached _ => ⟨reached.passed, reached.depth, known, reached.nodes⟩
    refine handled.bind fun _ => ?_
    refine runs_expect (Int.add_zero _) (runs_peek fun token _ => ?_)
    split
    · exact runs_absent.bind ended
    · exact runs_absent.bind ended
    · exact runs_absent.bind ended
    · exact runs_absent.bind ended
    · exact node.unseen.bind ended

end Assemble

variable {tokens : List Token}

/-- The nodes of a document are what its tokens say. -/
theorem Nodes.ofTokens?_sound (tokens : List Token) :
    match Nodes.ofTokens? tokens with
    | .ok (nodes, _) => nodes.Sound tokens
    | .error fault => Blamed tokens fault := by
  have begun : Assemble.Reached tokens #[] 0 0
      { tokens, handles := Assemble.defaultHandles } :=
    ⟨⟨[], rfl, rfl⟩, rfl, fun _ he => .inl he, .refl _⟩
  have run := Assemble.runs_document (2 * tokens.length + 2) _ _ begun nofun
  unfold Nodes.ofTokens?
  dsimp only
  cases done : Assemble.document (2 * tokens.length + 2)
      { tokens, handles := Assemble.defaultHandles } with
  | error fault => exact run.error done
  | ok p => exact (run.ok done).nodes.sound Nodes.sound_nil

end Yaml

end TenantSizing
