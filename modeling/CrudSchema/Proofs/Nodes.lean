import CrudSchema.Proofs.Layout
import CrudSchema.Yaml.Node

/-!
# The nodes of a written document

**Nodes** (`documentNodes`). The document is the first node. Behind it come the entries, each key
before its value and each list before its items.

**Steps** (`Gives`). What a step gives in a state, and what it leaves. Steps follow each other
(`Gives.bind`), and the items and the entries are taken one by one.

Main result: `compose_print`.
-/

namespace CrudSchema.Yaml

/-! ## Nodes -/

def Leaf.node (l : Leaf) : Node := ⟨Compose.scalarTag none l.isPlain l.content, .scalar l.content⟩

def keyNode (key : String) : Node := ⟨.text, .scalar key⟩

/-- How many nodes an entry has beside its key. -/
def Entry.size : Entry → Nat
  | .leaf _ => 1
  | .list items => items.length + 1

/-- The nodes of an entry that stands at a place. -/
def Entry.nodes (place : Place) : Entry → List Node
  | .leaf l => [l.node]
  | .list items =>
    ⟨.sequence, .sequence (List.range' (place + 1) items.length)⟩ :: items.map Leaf.node

theorem Entry.length_nodes (place : Place) (e : Entry) : (e.nodes place).length = e.size := by
  cases e <;> simp [Entry.nodes, Entry.size]

/-- The nodes of entries from a place on. -/
def nodesFrom (place : Place) : List (String × Entry) → List Node
  | [] => []
  | (key, e) :: rest => keyNode key :: e.nodes (place + 1) ++ nodesFrom (place + 1 + e.size) rest

/-- The places of keys and values from a place on. -/
def placesFrom (place : Place) : List (String × Entry) → List (Place × Place)
  | [] => []
  | (_, e) :: rest => (place, place + 1) :: placesFrom (place + 1 + e.size) rest

def documentNodes (entries : List (String × Entry)) : Nodes :=
  (⟨.mapping, .mapping (placesFrom 1 entries)⟩ :: nodesFrom 1 entries).toArray

/-! ## Steps -/

/-- From a state a step gives this, and leaves that. -/
def Gives {σ ε α : Type} (p : StateT σ (Except ε) α) (s : σ) (a : α) (s' : σ) : Prop :=
  p.run s = .ok (a, s')

namespace Gives

variable {σ ε α β : Type} {p : StateT σ (Except ε) α} {f : α → StateT σ (Except ε) β}
  {s s' s'' : σ} {a : α} {b : β}

theorem bind (hp : Gives p s a s') (hf : Gives (f a) s' b s'') : Gives (p >>= f) s b s'' := by
  rw [Gives, StateT.run_bind, hp]
  exact hf

theorem map (g : α → β) (hp : Gives p s a s') : Gives (g <$> p) s (g a) s' := by
  rw [Gives, StateT.run_map, hp]
  rfl

theorem pure (a : α) (s : σ) : Gives (Pure.pure a : StateT σ (Except ε) α) s a s := rfl

end Gives

namespace Compose

variable {s' : Composer} {t : Token} {ts : List Token} {nodes : Nodes}
  {anchors : List (String × Place)} {handles : List (String × String)}

theorem gives_front : Gives front ⟨t :: ts, nodes, anchors, handles⟩ t
    ⟨t :: ts, nodes, anchors, handles⟩ := rfl

theorem gives_accept : Gives (accept t) ⟨t :: ts, nodes, anchors, handles⟩ true
    ⟨ts, nodes, anchors, handles⟩ := by
  rw [accept]
  refine gives_front.bind ?_
  rw [if_pos rfl]
  rfl

theorem gives_refuse {t' : Token} (h : t ≠ t') :
    Gives (accept t') ⟨t :: ts, nodes, anchors, handles⟩ false
      ⟨t :: ts, nodes, anchors, handles⟩ := by
  rw [accept]
  refine gives_front.bind ?_
  rw [if_neg h]
  rfl

/-- No name and no type is written. -/
def IsBare : Token → Bool
  | .alias _ | .anchor _ | .tag _ _ => false
  | _ => true

theorem gives_properties (h : IsBare t = true) :
    Gives properties ⟨t :: ts, nodes, anchors, handles⟩ (none, none)
      ⟨t :: ts, nodes, anchors, handles⟩ := by
  cases t <;> first | rfl | cases h

theorem gives_node {levels : Nat} {block indentless : Bool} {place : Place} (h : IsBare t = true)
    (hcontent : Gives (content (node levels) block indentless none none)
      ⟨t :: ts, nodes, anchors, handles⟩ place s') :
    Gives (node (levels + 1) block indentless) ⟨t :: ts, nodes, anchors, handles⟩ place s' := by
  rw [node]
  refine gives_front.bind ?_
  cases t
  case «alias» => cases h
  all_goals exact (gives_properties h).bind (Gives.bind (.pure () _) hcontent)

/-- A scalar. -/
theorem gives_leaf (l : Leaf) (levels : Nat) (block indentless : Bool) :
    Gives (node (levels + 1) block indentless) ⟨l.token :: ts, nodes, anchors, handles⟩
      nodes.size ⟨ts, nodes.push l.node, anchors, handles⟩ :=
  gives_node rfl rfl

theorem gives_key (key : String) (hkey : Tag.ofPlain key = .text) (levels : Nat)
    (block indentless : Bool) :
    Gives (node (levels + 1) block indentless)
      ⟨.scalar key true :: ts, nodes, anchors, handles⟩ nodes.size
      ⟨ts, nodes.push (keyNode key), anchors, handles⟩ := by
  refine gives_node rfl ?_
  have hnode : keyNode key = ⟨scalarTag none true key, .scalar key⟩ := by
    simp [keyNode, scalarTag, hkey]
  rw [hnode]
  rfl

/-! ## Items -/

theorem push_append (n : Node) (ns : List Node) :
    nodes.push n ++ ns.toArray = nodes ++ (n :: ns).toArray := by
  simp

theorem gives_items {items : List Leaf} {levels limit : Nat} (ht : t ≠ .item)
    (hlimit : items.length < limit) :
    Gives (indentlessItems (node (levels + 1)) limit)
      ⟨(Entry.list items).tokens ++ t :: ts, nodes, anchors, handles⟩
      (List.range' nodes.size items.length)
      ⟨t :: ts, nodes ++ (items.map Leaf.node).toArray, anchors, handles⟩ := by
  induction items generalizing nodes limit with
  | nil =>
    obtain ⟨limit, rfl⟩ := Nat.exists_eq_succ_of_ne_zero (Nat.ne_of_gt hlimit)
    rw [indentlessItems]
    refine (gives_refuse ht).bind ?_
    simp
    rfl
  | cons l items ih =>
    obtain ⟨limit, rfl⟩ := Nat.exists_eq_succ_of_ne_zero (Nat.ne_of_gt (Nat.zero_lt_of_lt hlimit))
    have hitem : Gives (nodeUnless (node (levels + 1)) [.item, .key, .value, .blockEnd] true false)
        ⟨l.token :: ((Entry.list items).tokens ++ t :: ts), nodes, anchors, handles⟩ nodes.size
        ⟨(Entry.list items).tokens ++ t :: ts, nodes.push l.node, anchors, handles⟩ := by
      rw [nodeUnless]
      refine gives_front.bind ?_
      exact gives_leaf l levels true false
    have hrest : Gives (indentlessItems (node (levels + 1)) limit)
        ⟨(Entry.list items).tokens ++ t :: ts, nodes.push l.node, anchors, handles⟩ _ _ :=
      ih (Nat.lt_of_succ_lt_succ hlimit)
    rw [push_append, Array.size_push] at hrest
    rw [indentlessItems]
    refine gives_accept.bind ?_
    exact hitem.bind (hrest.bind (.pure _ _))

/-! ## Entries -/

theorem modify_append_cons {α : Type} (l l' : List α) (a : α) (g : α → α) :
    (l ++ a :: l').modify l.length g = l ++ g a :: l' := by
  simp [List.modify_eq_take_cons_drop]

theorem modify_push_append (n : Node) (ns : List Node) (g : Node → Node) :
    (nodes.push n ++ ns.toArray).modify nodes.size g = nodes.push (g n) ++ ns.toArray := by
  apply Array.ext'
  rw [push_append, push_append, Array.toList_modify, Array.toList_append, Array.toList_append]
  exact modify_append_cons nodes.toList ns n g

theorem gives_fill (tag : Tag) (noted filled : Content) (ns : List Node) :
    Gives (fill nodes.size filled) ⟨ts, nodes.push ⟨tag, noted⟩ ++ ns.toArray, anchors, handles⟩ ()
      ⟨ts, nodes.push ⟨tag, filled⟩ ++ ns.toArray, anchors, handles⟩ := by
  rw [← modify_push_append ⟨tag, noted⟩ ns fun n => { n with content := filled }]
  rfl

/-- A list is noted before its items, and filled behind them. -/
theorem gives_addSequence {tag : Tag} {items : Compose (List Place)} {places : List Place}
    {ns : List Node} {tokens : List Token}
    (h : Gives items ⟨tokens, nodes.push ⟨tag, .sequence []⟩, anchors, handles⟩ places
      ⟨ts, nodes.push ⟨tag, .sequence []⟩ ++ ns.toArray, anchors, handles⟩) :
    Gives (addSequence none tag items) ⟨tokens, nodes, anchors, handles⟩ nodes.size
      ⟨ts, nodes.push ⟨tag, .sequence places⟩ ++ ns.toArray, anchors, handles⟩ := by
  have hadd : Gives (add none ⟨tag, .sequence []⟩) ⟨tokens, nodes, anchors, handles⟩ nodes.size
      ⟨tokens, nodes.push ⟨tag, .sequence []⟩, anchors, handles⟩ := rfl
  rw [addSequence]
  exact hadd.bind (h.bind ((gives_fill tag _ _ ns).bind (.pure _ _)))

theorem gives_addMapping {tag : Tag} {entries : Compose (List (Place × Place))}
    {places : List (Place × Place)} {ns : List Node} {tokens : List Token}
    (h : Gives entries ⟨tokens, nodes.push ⟨tag, .mapping []⟩, anchors, handles⟩ places
      ⟨ts, nodes.push ⟨tag, .mapping []⟩ ++ ns.toArray, anchors, handles⟩) :
    Gives (addMapping none tag entries) ⟨tokens, nodes, anchors, handles⟩ nodes.size
      ⟨ts, nodes.push ⟨tag, .mapping places⟩ ++ ns.toArray, anchors, handles⟩ := by
  have hadd : Gives (add none ⟨tag, .mapping []⟩) ⟨tokens, nodes, anchors, handles⟩ nodes.size
      ⟨tokens, nodes.push ⟨tag, .mapping []⟩, anchors, handles⟩ := rfl
  rw [addMapping]
  exact hadd.bind (h.bind ((gives_fill tag _ _ ns).bind (.pure _ _)))

theorem gives_list {items : List Leaf} (hne : items ≠ []) {levels : Nat} (ht : t ≠ .item) :
    Gives (node (levels + 2) true true)
      ⟨(Entry.list items).tokens ++ t :: ts, nodes, anchors, handles⟩ nodes.size
      ⟨t :: ts, nodes ++ ((Entry.list items).nodes nodes.size).toArray, anchors, handles⟩ := by
  have hlimit : items.length < ((Entry.list items).tokens ++ t :: ts).length + 1 := by
    simp [Entry.tokens, List.length_flatMap]
    omega
  have hitems : Gives (indentlessItems (node (levels + 1)) _)
      ⟨(Entry.list items).tokens ++ t :: ts, nodes.push ⟨.sequence, .sequence []⟩, anchors, handles⟩
      _ _ := gives_items ht hlimit
  have hlist := gives_addSequence hitems
  rw [push_append, Array.size_push] at hlist
  obtain ⟨l, items, rfl⟩ := List.exists_cons_of_ne_nil hne
  refine gives_node rfl ?_
  rw [content]
  refine Gives.bind (a := _) rfl ?_
  exact gives_front.bind hlist

/-- The value behind a key. -/
theorem gives_value {e : Entry} (hne : e ≠ .list []) {levels : Nat} (ht : t ≠ .item) :
    Gives (blockValue (node (levels + 2)))
      ⟨.value :: (e.tokens ++ t :: ts), nodes, anchors, handles⟩ nodes.size
      ⟨t :: ts, nodes ++ (e.nodes nodes.size).toArray, anchors, handles⟩ := by
  rw [blockValue]
  refine gives_accept.bind ?_
  rw [if_pos rfl, nodeUnless]
  cases e with
  | leaf l =>
    refine gives_front.bind ?_
    rw [Entry.nodes, ← push_append, Array.append_empty]
    exact gives_leaf l (levels + 1) true true
  | list items =>
    have hitems : items ≠ [] := fun hnil => hne (congrArg Entry.list hnil)
    obtain ⟨l, items, rfl⟩ := List.exists_cons_of_ne_nil hitems
    refine Gives.bind (a := Token.item) rfl ?_
    exact gives_list hitems ht

/-- A value ends before the next key or with the block. -/
theorem exists_following (entries : List (String × Entry)) (ts : List Token) :
    ∃ t ts', entries.flatMap (fun (key, e) => entryTokens key e) ++ .blockEnd :: ts = t :: ts' ∧
      t ≠ .item := by
  cases entries with
  | nil => exact ⟨_, _, rfl, by decide⟩
  | cons entry entries => exact ⟨_, _, rfl, by decide⟩

/-- An entry gives its key and its value, in front of what the rest gives. -/
theorem gives_entry {key : String} (hkey : IsKey key) {e : Entry} (hne : e ≠ .list [])
    {levels limit : Nat} (ht : t ≠ .item) {places : List (Place × Place)}
    (hrest : Gives (blockEntries (node (levels + 2)) limit)
      ⟨t :: ts, nodes.push (keyNode key) ++ (e.nodes (nodes.size + 1)).toArray, anchors, handles⟩
      places s') :
    Gives (blockEntries (node (levels + 2)) (limit + 1))
      ⟨entryTokens key e ++ t :: ts, nodes, anchors, handles⟩
      ((nodes.size, nodes.size + 1) :: places) s' := by
  have hfirst : Gives (nodeUnless (node (levels + 2)) [.key, .value, .blockEnd] true true)
      ⟨.scalar key true :: .value :: (e.tokens ++ t :: ts), nodes, anchors, handles⟩ nodes.size
      ⟨.value :: (e.tokens ++ t :: ts), nodes.push (keyNode key), anchors, handles⟩ := by
    rw [nodeUnless]
    refine gives_front.bind ?_
    exact gives_key key hkey.text (levels + 1) true true
  have hvalue : Gives (blockValue (node (levels + 2)))
      ⟨.value :: (e.tokens ++ t :: ts), nodes.push (keyNode key), anchors, handles⟩ _ _ :=
    gives_value hne ht
  rw [Array.size_push] at hvalue
  have htokens : entryTokens key e ++ t :: ts =
      .key :: .scalar key true :: .value :: (e.tokens ++ t :: ts) := by
    simp [entryTokens]
  rw [htokens, blockEntries]
  refine gives_accept.bind ?_
  rw [if_pos rfl]
  exact hfirst.bind (hvalue.bind (hrest.bind (.pure _ _)))

theorem push_nodes_append (key : String) (e : Entry) (entries : List (String × Entry)) :
    nodes.push (keyNode key) ++ (e.nodes (nodes.size + 1)).toArray ++
        (nodesFrom (nodes.size + 1 + e.size) entries).toArray =
      nodes ++ (nodesFrom nodes.size ((key, e) :: entries)).toArray := by
  rw [nodesFrom, push_append, Array.append_assoc]
  simp

/-- Entries up to the end of their block. -/
theorem gives_entries {entries : List (String × Entry)} (hkeys : ∀ e ∈ entries, IsKey e.1)
    (hlists : ∀ e ∈ entries, e.2 ≠ .list []) {levels limit : Nat}
    (hlimit : entries.length < limit) :
    Gives (blockEntries (node (levels + 2)) limit)
      ⟨entries.flatMap (fun (key, e) => entryTokens key e) ++ .blockEnd :: ts, nodes, anchors,
        handles⟩
      (placesFrom nodes.size entries)
      ⟨ts, nodes ++ (nodesFrom nodes.size entries).toArray, anchors, handles⟩ := by
  induction entries generalizing nodes limit with
  | nil =>
    obtain ⟨limit, rfl⟩ := Nat.exists_eq_succ_of_ne_zero (Nat.ne_of_gt hlimit)
    rw [blockEntries, nodesFrom, Array.append_empty]
    refine (gives_refuse (by decide)).bind ?_
    rw [if_neg Bool.false_ne_true]
    exact gives_accept.bind (.pure _ _)
  | cons entry entries ih =>
    obtain ⟨key, e⟩ := entry
    obtain ⟨limit, rfl⟩ := Nat.exists_eq_succ_of_ne_zero (Nat.ne_of_gt (Nat.zero_lt_of_lt hlimit))
    obtain ⟨hkey, hkeys⟩ := List.forall_mem_cons.1 hkeys
    obtain ⟨hlist, hlists⟩ := List.forall_mem_cons.1 hlists
    obtain ⟨t, ts', hnext, ht⟩ := exists_following entries ts
    have hrest : Gives (blockEntries (node (levels + 2)) limit)
        ⟨_, nodes.push (keyNode key) ++ (e.nodes (nodes.size + 1)).toArray, anchors, handles⟩ _ _ :=
      ih hkeys hlists (Nat.lt_of_succ_lt_succ hlimit)
    have hsize : (nodes.push (keyNode key) ++ (e.nodes (nodes.size + 1)).toArray).size =
        nodes.size + 1 + e.size := by
      rw [Array.size_append, Array.size_push]
      simp [e.length_nodes]
    rw [hnext, hsize, push_nodes_append] at hrest
    rw [List.flatMap_cons, List.append_assoc, hnext]
    exact gives_entry hkey hlist ht hrest

end Compose

/-! ## Documents -/

open Compose

theorem length_le_documentTokens (entries : List (String × Entry)) :
    entries.length ≤ (documentTokens entries).length := by
  induction entries with
  | nil => exact Nat.zero_le _
  | cons e entries ih =>
    simp [documentTokens, entryTokens] at ih ⊢
    omega

/-- **A document is read as its nodes.** -/
theorem compose_print {entries : List (String × Entry)} (hne : entries ≠ [])
    (hkeys : ∀ e ∈ entries, IsKey e.1) (hlists : ∀ e ∈ entries, e.2 ≠ .list []) :
    compose (print entries) = .ok (some 0, documentNodes entries) := by
  have hentries : Gives (blockEntries (node 489) ((documentTokens entries).length + 1))
      ⟨_, (#[] : Nodes).push ⟨.mapping, .mapping []⟩, [], usualHandles⟩ _
      ⟨[.streamEnd], _, [], usualHandles⟩ :=
    gives_entries hkeys hlists (Nat.lt_succ_of_le (length_le_documentTokens entries))
  have hmapping := gives_addMapping hentries
  have hnodes : (#[] : Nodes).push ⟨.mapping, .mapping (placesFrom 1 entries)⟩ ++
      (nodesFrom 1 entries).toArray = documentNodes entries := by
    rw [push_append, Array.empty_append, documentNodes]
  rw [Array.size_push, Array.size_empty, Nat.zero_add, hnodes] at hmapping
  have hnode : Gives (node mostLevels true false)
      ⟨documentTokens entries, #[], [], usualHandles⟩ 0
      ⟨[.streamEnd], documentNodes entries, [], usualHandles⟩ := by
    refine gives_node rfl ?_
    rw [content]
    refine Gives.bind (a := _) rfl ?_
    refine gives_front.bind ?_
    refine Gives.bind (a := ()) rfl ?_
    exact hmapping
  have hdocument : Gives document? ⟨documentTokens entries, #[], [], []⟩ (some 0)
      ⟨[.streamEnd], documentNodes entries, [], usualHandles⟩ := by
    have hhandles : Gives (modify fun s => { s with handles := usualHandles } : Compose Unit)
        ⟨documentTokens entries, #[], [], []⟩ ()
        ⟨documentTokens entries, #[], [], usualHandles⟩ := rfl
    have hends : Gives (do
        skipEnds (← limit)
        if (← front) = .streamEnd then pure (some 0) else fail .severalDocuments)
        ⟨[.streamEnd], documentNodes entries, [], usualHandles⟩ (some 0)
        ⟨[.streamEnd], documentNodes entries, [], usualHandles⟩ := rfl
    rw [document?]
    refine gives_front.bind ?_
    exact Gives.bind (f := fun _ => _) hhandles ((hnode.map some).bind hends)
  rw [compose, tokens_print hne hkeys]
  simp only [bind, Except.bind]
  rw [hdocument]
  rfl

end CrudSchema.Yaml
