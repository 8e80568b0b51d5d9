import CrudSchema.Proofs.Nodes
import CrudSchema.Yaml.Reader

/-!
# The data of a written document

**Values** (`Shows`). A document gives a mapping of its keys, in their order. A leaf is a value, and
a list is a compound of the values of its items.

**Places** (`Stands`). The nodes of an entry stand one behind another. No key is a merge key, so a
mapping stays as it is (`gives_flatten`).

**Turns** (`gives_entries`, `gives_workOff`). The entries are read in the first turn. The lists
among them are met there, and each is filled in a turn of its own.

Main result: `read_print`.
-/

namespace CrudSchema.Yaml

/-! ## Values -/

def Leaf.value : Leaf → Value
  | .int n => .int n
  | .bool b => .bool b
  | .text s => .text s

/-- The type that a leaf is read as. -/
def Leaf.tag : Leaf → Tag
  | .int _ => .int
  | .bool _ => .bool
  | .text _ => .text

/-- A leaf that is not too long to be read. -/
def Leaf.isReadable : Leaf → Bool
  | .int n => Notation.isWritable n
  | _ => true

/-- The leaves of an entry. -/
def Entry.leaves : Entry → List Leaf
  | .leaf l => [l]
  | .list items => items

/-- The value is that of an entry, in some data. -/
def Entry.Is (d : Data) (v : Value) : Entry → Prop
  | .leaf l => v = l.value
  | .list items => d.compound? v = some (.list (items.map Leaf.value))

theorem Leaf.node_eq (l : Leaf) : l.node = ⟨l.tag, .scalar l.content⟩ := by
  cases l with
  | int n =>
    have htag : Compose.scalarTag none true (toString n) = .int := Tag.ofPlain_toString n
    exact congrArg (Node.mk · (.scalar (toString n))) htag
  | bool b => cases b <;> decide
  | text s =>
    have htag : Compose.scalarTag none (Leaf.text s).isPlain s = .text := by
      rw [Compose.scalarTag, isPlain]
      split
      next hplain =>
        have hstyle : styleOf s = .plain := of_decide_eq_true hplain
        rw [styleOf] at hstyle
        split at hstyle
        next hallows => exact of_decide_eq_true (Bool.and_eq_true_iff.1 hallows).2
        next =>
          split at hstyle
          · cases hstyle
          · cases hstyle
      next => rfl
    rw [node, content, htag, tag]

theorem Leaf.scalarValue?_tag {l : Leaf} (h : l.isReadable = true) :
    scalarValue? l.tag l.content = some (.ok l.value) := by
  cases l with
  | int n =>
    change some (((integerOf (toString n).toList).map Value.int).mapError Fault.conversion) = _
    rw [integerOf_toString h]
    rfl
  | bool b => cases b <;> decide
  | text s => rfl

/-! ## Places -/

/-- Nodes stand one behind another from a place on. -/
def Stands (nodes : Nodes) (place : Place) (ns : List Node) : Prop := ns <+: nodes.toList.drop place

namespace Stands

variable {nodes : Nodes} {place : Place} {n : Node} {ns ns' : List Node}

theorem getElem? (h : Stands nodes place (n :: ns)) : nodes[place]? = some n := by
  obtain ⟨rest, hrest⟩ := h
  have hdrop : (nodes.toList.drop place)[0]? = some n := by rw [← hrest]; rfl
  simpa using hdrop

theorem left (h : Stands nodes place (ns ++ ns')) : Stands nodes place ns :=
  (List.prefix_append ns ns').trans h

theorem right (h : Stands nodes place (ns ++ ns')) : Stands nodes (place + ns.length) ns' := by
  obtain ⟨rest, hrest⟩ := h
  refine ⟨rest, ?_⟩
  rw [← List.drop_drop, ← hrest, List.append_assoc, List.drop_left]

theorem tail (h : Stands nodes place (n :: ns)) : Stands nodes (place + 1) ns := by
  have h : Stands nodes place ([n] ++ ns) := h
  exact h.right

end Stands

/-! ## Merging -/

theorem modify_eq_self {nodes : Nodes} {place : Place} {g : Node → Node}
    (h : ∀ n, nodes[place]? = some n → g n = n) : nodes.modify place g = nodes := by
  refine Array.ext_getElem? fun i => ?_
  rw [Array.getElem?_modify]
  split
  next heq =>
    subst heq
    cases hn : nodes[place]? with
    | none => rfl
    | some n => exact congrArg some (h n hn)
  next => rfl

theorem gives_takeMerge {nodes : Nodes} {place : Place}
    (h : ∀ e ∈ nodes.entriesAt place, nodes.tagAt? e.1 = some .text) :
    Gives (Rework.takeMerge place) nodes none nodes := by
  have hnone : (nodes.entriesAt place).find? nodes.isMerge = none := by
    refine List.find?_eq_none.2 fun e he => ?_
    simp [Nodes.isMerge, h e he]
  refine Gives.bind (a := nodes) rfl ?_
  simp only [hnone]
  rfl

theorem gives_nameDefault {nodes : Nodes} {entry : Place × Place}
    (h : nodes.tagAt? entry.1 = some .text) : Gives (Rework.nameDefault entry) nodes () nodes := by
  have hself : (nodes.modify entry.1 fun n =>
      if n.tag = .default then { n with tag := .text } else n) = nodes := by
    refine modify_eq_self fun n hn => if_neg fun hdefault => ?_
    rw [Nodes.tagAt?, hn, Option.map_some, hdefault] at h
    cases h
  exact congrArg (fun nodes => Except.ok ((), nodes)) hself

theorem entriesAt_eq {nodes : Nodes} {place : Place} {tag : Tag} {entries : List (Place × Place)}
    (h : nodes[place]? = some ⟨tag, .mapping entries⟩) : nodes.entriesAt place = entries := by
  rw [Nodes.entriesAt, Nodes.contentAt?, h]
  rfl

/-- A mapping without merge keys and default keys stays as it is. -/
theorem gives_flatten {nodes : Nodes} {place : Place} {tag : Tag} {entries : List (Place × Place)}
    (hplace : nodes[place]? = some ⟨tag, .mapping entries⟩)
    (h : ∀ e ∈ entries, nodes.tagAt? e.1 = some .text) : Gives (flatten place) nodes () nodes := by
  have hat := entriesAt_eq hplace
  have habsorb : ∀ merges, Gives (absorb merges place) nodes [] nodes := by
    rintro (_ | merges)
    · exact .pure _ _
    · exact (gives_takeMerge (hat ▸ h)).bind (.pure _ _)
  have hnames : ∀ entries : List (Place × Place), (∀ e ∈ entries, nodes.tagAt? e.1 = some .text) →
      Gives (entries.forM Rework.nameDefault) nodes () nodes := by
    intro entries hentries
    induction entries with
    | nil => exact .pure _ _
    | cons e entries ih =>
      obtain ⟨he, hentries⟩ := List.forall_mem_cons.1 hentries
      exact (gives_nameDefault he).bind (ih hentries)
  have hentries : nodes.setEntriesAt place ([] ++ nodes.entriesAt place) = nodes := by
    refine modify_eq_self fun n hn => ?_
    rw [hplace] at hn
    obtain rfl := Option.some.inj hn
    rw [List.nil_append, hat]
  refine Gives.bind (a := nodes) rfl ((habsorb _).bind ?_)
  refine Gives.bind (a := nodes) rfl ((hnames _ (hat ▸ h)).bind ?_)
  exact congrArg (fun nodes => Except.ok ((), nodes)) hentries

/-! ## Scalars -/

namespace Build

variable {b : Builder} {place : Place} {n : Node} {l : Leaf}

theorem gives_tagAt (h : b.nodes[place]? = some n) : Gives (tagAt place) b n.tag b := by
  refine Gives.bind (a := b) rfl ?_
  rw [Nodes.tagAt?, h]
  rfl

theorem gives_contentAt (h : b.nodes[place]? = some n) :
    Gives (contentAt place) b n.content b := by
  refine Gives.bind (a := b) rfl ?_
  rw [Nodes.contentAt?, h]
  rfl

theorem gives_rework {step : Rework Unit} (h : Gives step b.nodes () b.nodes) :
    Gives (rework step) b () b := by
  refine Gives.bind (a := b) rfl ?_
  rw [h]
  rfl

theorem gives_scalarText {tag : Tag} {text : String}
    (h : b.nodes[place]? = some ⟨tag, .scalar text⟩) : Gives (scalarText place) b text b := by
  refine Gives.bind (a := b) rfl ?_
  rw [textAt]
  exact (gives_contentAt h).bind (.pure _ _)

theorem gives_leaf (h : b.nodes[place]? = some l.node) (hreadable : l.isReadable = true) :
    Gives (valueAt place) b l.value b := by
  rw [l.node_eq] at h
  have hscalar : Gives (scalarAt l.tag place) b l.value b := by
    rw [scalarAt]
    refine (gives_scalarText h).bind ((gives_contentAt h).bind ?_)
    dsimp only
    split
    next hmapping => cases hmapping
    next =>
      rw [Leaf.scalarValue?_tag hreadable]
      rfl
  have hempty : emptyCompound? l.tag = none := by cases l <;> rfl
  have hname : valuelessName? l.tag = none := by cases l <;> rfl
  rw [valueAt]
  refine (gives_tagAt h).bind ?_
  dsimp only
  rw [hempty, hname]
  exact hscalar

/-! ## Keys -/

def textKey (key : String) : Key := ⟨.text key, 0⟩

theorem gives_keyAt {key : String} (h : b.nodes[place]? = some (keyNode key)) :
    Gives (keyAt place) b (textKey key) b := by
  have hnode : keyNode key = (Leaf.text key).node := (Leaf.node_eq (.text key)).symm
  rw [keyAt]
  exact (gives_leaf (l := .text key) (hnode ▸ h) rfl).bind rfl

theorem same_textKey (key key' : String) :
    (textKey key).same (textKey key') = decide (key = key') := by
  by_cases h : key = key'
  · subst h
    simp [textKey, Key.same]
  · simp [textKey, Key.same, Value.sameKey, Value.whole?, h]

/-- A key that is not there yet goes to the end. -/
theorem setEntry_of_notMem {key : String} {v : Value} {found : List (String × Value)}
    (h : key ∉ found.map Prod.fst) :
    setEntry (textKey key) v (found.map fun e => (textKey e.1, e.2)) =
      (found ++ [(key, v)]).map fun e => (textKey e.1, e.2) := by
  induction found with
  | nil => rfl
  | cons e found ih =>
    rw [List.map_cons, List.mem_cons, not_or] at h
    have hsame : (textKey e.1).same (textKey key) = false := by
      rw [same_textKey, decide_eq_false (Ne.symm h.1)]
    rw [List.map_cons, setEntry, hsame, if_neg Bool.false_ne_true, ih h.2]
    rfl

/-! ## Lists -/

theorem gives_items {items : List Leaf} (hstands : Stands b.nodes place (items.map Leaf.node))
    (hreadable : ∀ l ∈ items, l.isReadable = true) :
    Gives ((List.range' place items.length).mapM valueAt) b (items.map Leaf.value) b := by
  induction items generalizing place with
  | nil => exact .pure _ _
  | cons l items ih =>
    obtain ⟨hl, hitems⟩ := List.forall_mem_cons.1 hreadable
    rw [List.length_cons, List.range'_succ, List.mapM_cons]
    exact (gives_leaf hstands.getElem? hl).bind ((ih hstands.tail hitems).bind (.pure _ _))

theorem gives_compoundAt_list {items : List Leaf}
    (hstands : Stands b.nodes place ((Entry.list items).nodes place))
    (hreadable : ∀ l ∈ items, l.isReadable = true) :
    Gives (compoundAt .sequence place) b (.list (items.map Leaf.value)) b := by
  have hitems : Gives (itemsAt place) b (List.range' (place + 1) items.length) b := by
    rw [itemsAt]
    exact (gives_contentAt hstands.getElem?).bind (.pure _ _)
  exact hitems.bind ((gives_items hstands.tail hreadable).bind (.pure _ _))

/-! ## Entries -/

/-- No place from this one on has been met. -/
def Fresh (b : Builder) (place : Place) : Prop :=
  ∀ p, place ≤ p → p < b.nodes.size → b.isMet[p]? = some false

/-- A builder, and the same after places have been met. -/
structure Meets (b b' : Builder) (places : List Place) : Prop where
  nodes : b'.nodes = b.nodes
  met : b'.met.toList = b.met.toList ++ places
  size : b'.compounds.size = b.compounds.size

theorem Meets.refl (b : Builder) : Meets b b [] := ⟨rfl, (List.append_nil _).symm, rfl⟩

theorem Meets.trans {b b' b'' : Builder} {places places' : List Place} (h : Meets b b' places)
    (h' : Meets b' b'' places') : Meets b b'' (places ++ places') :=
  ⟨h'.nodes.trans h.nodes, by rw [h'.met, h.met, List.append_assoc], h'.size.trans h.size⟩

theorem Fresh.mono {place' : Place} (h : Fresh b place) (hle : place ≤ place') : Fresh b place' :=
  fun p hp => h p (hle.trans hp)

/-- A compound is met where none has been met before. -/
theorem gives_compound {c : Compound} (hn : b.nodes[place]? = some n)
    (hempty : emptyCompound? n.tag = some c) (hfresh : Fresh b place) :
    ∃ b', Gives (valueAt place) b (.compound place) b' ∧ Meets b b' [place] ∧
      Fresh b' (place + 1) := by
  obtain ⟨hbound, -⟩ := Array.getElem?_eq_some_iff.1 hn
  refine ⟨{ b with
    compounds := b.compounds.setIfInBounds place c
    met := b.met.push place
    isMet := b.isMet.setIfInBounds place true }, ?_, ⟨rfl, ?_, ?_⟩, fun p hp hsize => ?_⟩
  · rw [valueAt]
    refine (gives_tagAt hn).bind ?_
    simp only [hempty]
    refine Gives.bind (a := ()) (Gives.bind (a := b) rfl ?_) (.pure _ _)
    simp only [hfresh place (Nat.le_refl place) hbound]
    rfl
  · exact Array.toList_push
  · exact Array.size_setIfInBounds
  · rw [Array.getElem?_setIfInBounds_ne (Nat.ne_of_lt hp)]
    exact hfresh p (Nat.le_of_succ_le hp) hsize

/-- What is read of an entry at a place before its list is filled. -/
def found (place : Place) : Entry → Value
  | .leaf l => l.value
  | .list _ => .compound place

/-- The list that an entry at a place is, if it is one. -/
def lists (place : Place) : Entry → List (Place × List Leaf)
  | .leaf _ => []
  | .list items => [(place, items)]

def foundFrom (place : Place) : List (String × Entry) → List (String × Value)
  | [] => []
  | (key, e) :: rest => (key, found (place + 1) e) :: foundFrom (place + 1 + e.size) rest

def listsFrom (place : Place) : List (String × Entry) → List (Place × List Leaf)
  | [] => []
  | (_, e) :: rest => lists (place + 1) e ++ listsFrom (place + 1 + e.size) rest

theorem gives_entry {e : Entry} (hstands : Stands b.nodes place (e.nodes place))
    (hreadable : ∀ l ∈ e.leaves, l.isReadable = true) (hfresh : Fresh b place) :
    ∃ b', Gives (valueAt place) b (found place e) b' ∧
      Meets b b' ((lists place e).map Prod.fst) ∧ Fresh b' (place + e.size) := by
  cases e with
  | leaf l =>
    exact ⟨b, gives_leaf hstands.getElem? (hreadable l List.mem_cons_self), .refl b,
      hfresh.mono (Nat.le_add_right _ _)⟩
  | list items =>
    obtain ⟨b', hgives, hmeets, hfresh'⟩ := gives_compound hstands.getElem? rfl hfresh
    exact ⟨b', hgives, hmeets, hfresh'.mono (Nat.add_le_add_left (Nat.le_add_left 1 _) place)⟩

/-- Read an entry behind those found. -/
def addEntry (found : List (Key × Value)) : Place × Place → Build (List (Key × Value))
  | (k, v) => do
    let key ← keyAt k
    let value ← valueAt v
    return setEntry key value found

theorem gives_entries {entries : List (String × Entry)} (before : List (String × Value))
    (hstands : Stands b.nodes place (nodesFrom place entries))
    (hreadable : ∀ e ∈ entries, ∀ l ∈ e.2.leaves, l.isReadable = true) (hfresh : Fresh b place)
    (hdistinct : (before.map Prod.fst ++ entries.map Prod.fst).Nodup) :
    ∃ b', Gives
        ((placesFrom place entries).foldlM addEntry (before.map fun e => (textKey e.1, e.2)))
        b ((before ++ foundFrom place entries).map fun e => (textKey e.1, e.2)) b' ∧
      Meets b b' ((listsFrom place entries).map Prod.fst) := by
  induction entries generalizing place before b with
  | nil => exact ⟨b, by rw [foundFrom, List.append_nil]; exact .pure _ _, .refl b⟩
  | cons entry entries ih =>
    obtain ⟨key, e⟩ := entry
    obtain ⟨he, hreadable⟩ := List.forall_mem_cons.1 hreadable
    rw [nodesFrom, List.cons_append] at hstands
    obtain ⟨b₁, hvalue, hmeets, hfresh₁⟩ := gives_entry hstands.tail.left he
      (hfresh.mono (Nat.le_succ place))
    have hkey : key ∉ before.map Prod.fst := fun hmem =>
      (List.nodup_append.1 hdistinct).2.2 _ hmem _ List.mem_cons_self rfl
    have hstands₁ := hstands.tail.right
    rw [e.length_nodes, ← hmeets.nodes] at hstands₁
    obtain ⟨b₂, hentries, hmeets₂⟩ := ih (before ++ [(key, found (place + 1) e)]) hstands₁
      hreadable hfresh₁ (by simpa [List.append_assoc] using hdistinct)
    refine ⟨b₂, ?_, ?_⟩
    · have hadd : Gives (addEntry (before.map fun e => (textKey e.1, e.2)) (place, place + 1)) b
          ((before ++ [(key, found (place + 1) e)]).map fun e => (textKey e.1, e.2)) b₁ := by
        rw [← setEntry_of_notMem hkey]
        exact (gives_keyAt hstands.getElem?).bind (hvalue.bind (.pure _ _))
      rw [List.append_assoc] at hentries
      rw [placesFrom, List.foldlM_cons]
      exact hadd.bind hentries
    · rw [listsFrom, List.map_append]
      exact hmeets.trans hmeets₂

/-! ## Turns -/

/-- A list stands at a place, and its items are readable. -/
def IsList (nodes : Nodes) (e : Place × List Leaf) : Prop :=
  Stands nodes e.1 ((Entry.list e.2).nodes e.1) ∧ ∀ l ∈ e.2, l.isReadable = true

/-- **The lists that have been met are filled**, each in its turn. -/
theorem gives_workOff {turn limit : Nat} {met : List (Place × List Leaf)}
    (hlists : ∀ e ∈ met, IsList b.nodes e) (hdistinct : (met.map Prod.fst).Nodup)
    (hmet : b.met.toList.drop turn = met.map Prod.fst) (hlimit : met.length ≤ limit)
    (hsize : b.compounds.size = b.nodes.size) :
    ∃ b', Gives (workOff turn limit) b () b' ∧
      (∀ e ∈ met, b'.compounds[e.1]? = some (.list (e.2.map Leaf.value))) ∧
      ∀ p, p ∉ met.map Prod.fst → b'.compounds[p]? = b.compounds[p]? := by
  have hturn : b.met[turn]? = (met.map Prod.fst).head? := by
    rw [← hmet, List.head?_drop, Array.getElem?_toList]
  induction met generalizing turn limit b with
  | nil =>
    refine ⟨b, ?_, fun e he => absurd he List.not_mem_nil, fun _ _ => rfl⟩
    cases limit with
    | zero => exact .pure _ _
    | succ limit =>
      refine Gives.bind (a := b) rfl ?_
      rw [hturn]
      exact .pure _ _
  | cons e met ih =>
    obtain ⟨place, items⟩ := e
    obtain ⟨limit, rfl⟩ := Nat.exists_eq_succ_of_ne_zero (Nat.ne_of_gt (Nat.zero_lt_of_lt hlimit))
    obtain ⟨⟨hstands, hreadable⟩, hlists⟩ := List.forall_mem_cons.1 hlists
    rw [List.map_cons, List.nodup_cons] at hdistinct
    have hbound : place < b.compounds.size := by
      rw [hsize]
      exact (Array.getElem?_eq_some_iff.1 hstands.getElem?).1
    let c : Compound := .list (items.map Leaf.value)
    let b₁ : Builder := { b with compounds := b.compounds.setIfInBounds place c }
    have hsize₁ : b₁.compounds.size = b₁.nodes.size := by rw [Array.size_setIfInBounds, hsize]
    have hdrop : b₁.met.toList.drop (turn + 1) = met.map Prod.fst := by
      rw [← List.drop_drop, hmet]
      rfl
    have hturn₁ : b₁.met[turn + 1]? = (met.map Prod.fst).head? := by
      rw [← hdrop, List.head?_drop, Array.getElem?_toList]
    obtain ⟨b', hgives, hfilled, hothers⟩ :=
      ih (b := b₁) hlists hdistinct.2 hdrop (Nat.le_of_succ_le_succ hlimit) hsize₁ hturn₁
    refine ⟨b', ?_, ?_, fun p hp => ?_⟩
    · refine Gives.bind (a := b) rfl ?_
      rw [hturn]
      refine (gives_tagAt hstands.getElem?).bind ((gives_compoundAt_list hstands hreadable).bind ?_)
      exact Gives.bind (a := ()) rfl hgives
    · refine List.forall_mem_cons.2 ⟨?_, hfilled⟩
      rw [hothers place hdistinct.1]
      exact Array.getElem?_setIfInBounds_self_of_lt hbound
    · rw [List.map_cons, List.mem_cons, not_or] at hp
      rw [hothers p hp.2]
      exact Array.getElem?_setIfInBounds_ne (Ne.symm hp.1)

/-! ## Lists among entries -/

variable {entries : List (String × Entry)} {nodes : Nodes}

theorem isList_of_mem_listsFrom (hstands : Stands nodes place (nodesFrom place entries))
    (hreadable : ∀ e ∈ entries, ∀ l ∈ e.2.leaves, l.isReadable = true) :
    ∀ e ∈ listsFrom place entries, IsList nodes e := by
  induction entries generalizing place with
  | nil => exact fun e he => absurd he List.not_mem_nil
  | cons entry entries ih =>
    obtain ⟨key, e⟩ := entry
    obtain ⟨he, hreadable⟩ := List.forall_mem_cons.1 hreadable
    rw [nodesFrom, List.cons_append] at hstands
    have hrest := hstands.tail.right
    rw [e.length_nodes] at hrest
    have hfirst : ∀ e' ∈ lists (place + 1) e, IsList nodes e' := by
      cases e with
      | leaf l => exact fun e' he' => absurd he' List.not_mem_nil
      | list items =>
        rintro e' he'
        obtain rfl := List.mem_singleton.1 he'
        exact ⟨hstands.tail.left, he⟩
    exact fun e' he' => (List.mem_append.1 he').elim (hfirst e') (ih hrest hreadable e')

theorem lt_of_mem_listsFrom : ∀ e ∈ listsFrom place entries, place < e.1 := by
  induction entries generalizing place with
  | nil => exact fun e he => absurd he List.not_mem_nil
  | cons entry entries ih =>
    obtain ⟨key, e⟩ := entry
    intro e' he'
    rcases List.mem_append.1 he' with he' | he'
    · cases e with
      | leaf l => cases he'
      | list items =>
        obtain rfl := List.mem_singleton.1 he'
        exact Nat.lt_succ_self place
    · exact Nat.lt_of_le_of_lt (Nat.le_add_right_of_le (Nat.le_succ place)) (ih e' he')

theorem nodup_listsFrom : ((listsFrom place entries).map Prod.fst).Nodup := by
  induction entries generalizing place with
  | nil => exact List.nodup_nil
  | cons entry entries ih =>
    obtain ⟨key, e⟩ := entry
    rw [listsFrom]
    cases e with
    | leaf l => exact ih
    | list items =>
      refine List.nodup_cons.2 ⟨fun hmem => ?_, ih⟩
      obtain ⟨e', he', heq⟩ := List.mem_map.1 hmem
      have hlater : place + 1 < e'.1 :=
        Nat.lt_of_le_of_lt (Nat.le_add_right _ _) (lt_of_mem_listsFrom e' he')
      exact Nat.lt_irrefl _ (heq ▸ hlater)

theorem length_listsFrom_le :
    (listsFrom place entries).length ≤ (nodesFrom place entries).length := by
  induction entries generalizing place with
  | nil => exact Nat.le_refl 0
  | cons entry entries ih =>
    obtain ⟨key, e⟩ := entry
    have hrest : (listsFrom (place + 1 + e.size) entries).length ≤
        (nodesFrom (place + 1 + e.size) entries).length := ih
    have hfirst : (lists (place + 1) e).length ≤ 1 := by
      cases e with
      | leaf l => exact Nat.zero_le 1
      | list items => exact Nat.le_refl 1
    rw [listsFrom, nodesFrom, List.length_append, List.length_append, List.length_cons]
    omega

/-- The keys of a document are texts. -/
theorem tagAt?_of_mem_placesFrom (hstands : Stands nodes place (nodesFrom place entries)) :
    ∀ e ∈ placesFrom place entries, nodes.tagAt? e.1 = some .text := by
  induction entries generalizing place with
  | nil => exact fun e he => absurd he List.not_mem_nil
  | cons entry entries ih =>
    obtain ⟨key, e⟩ := entry
    rw [nodesFrom, List.cons_append] at hstands
    have hrest := hstands.tail.right
    rw [e.length_nodes] at hrest
    refine List.forall_mem_cons.2 ⟨?_, ih hrest⟩
    rw [Nodes.tagAt?, hstands.getElem?]
    rfl

/-- What was found are the entries, once the lists are filled. -/
theorem forall₂_foundFrom {d : Data}
    (h : ∀ e ∈ listsFrom place entries, d.compounds[e.1]? = some (.list (e.2.map Leaf.value))) :
    List.Forall₂ (fun e e' => e'.1 = e.1 ∧ e.2.Is d e'.2) entries (foundFrom place entries) := by
  induction entries generalizing place with
  | nil => exact .nil
  | cons entry entries ih =>
    obtain ⟨key, e⟩ := entry
    obtain ⟨hfirst, hrest⟩ := List.forall_mem_append.1 h
    refine .cons ⟨rfl, ?_⟩ (ih hrest)
    cases e with
    | leaf l => rfl
    | list items => exact hfirst _ List.mem_cons_self

end Build

/-! ## Documents -/

/-- The data are a mapping of entries, in their order. -/
def Shows (d : Data) (entries : List (String × Entry)) : Prop :=
  ∃ found : List (String × Value),
    d.compound? d.root = some (.map (found.map fun e => (.text e.1, e.2))) ∧
      List.Forall₂ (fun e e' => e'.1 = e.1 ∧ e.2.Is d e'.2) entries found

open Build

theorem stands_documentNodes (entries : List (String × Entry)) :
    Stands (documentNodes entries) 1 (nodesFrom 1 entries) := List.prefix_refl _

/-- The first turn reads the entries. -/
theorem gives_root {entries : List (String × Entry)} {b : Builder}
    (hnodes : b.nodes = documentNodes entries) (hfresh : Fresh b 1)
    (hreadable : ∀ e ∈ entries, ∀ l ∈ e.2.leaves, l.isReadable = true)
    (hdistinct : (entries.map Prod.fst).Nodup) :
    ∃ b', Gives (compoundAt .mapping 0) b
        (.map ((foundFrom 1 entries).map fun e => (.text e.1, e.2))) b' ∧
      Build.Meets b b' ((listsFrom 1 entries).map Prod.fst) := by
  have hstands : Stands b.nodes 1 (nodesFrom 1 entries) := hnodes ▸ stands_documentNodes entries
  have hplace : b.nodes[0]? = some ⟨.mapping, .mapping (placesFrom 1 entries)⟩ := by
    rw [hnodes]
    rfl
  obtain ⟨b', hentries, hmeets⟩ := gives_entries [] hstands hreadable hfresh hdistinct
  refine ⟨b', ?_, hmeets⟩
  have hflatten := gives_rework (gives_flatten hplace (tagAt?_of_mem_placesFrom hstands))
  have hat : Gives (entriesAt 0) b ((foundFrom 1 entries).map fun e => (textKey e.1, e.2)) b' := by
    refine (gives_contentAt hplace).bind (hflatten.bind (Gives.bind (a := b) rfl ?_))
    rw [entriesAt_eq hplace]
    exact hentries
  refine hat.bind ?_
  rw [List.map_map]
  exact .pure _ _

/-- All turns together. -/
theorem gives_document {entries : List (String × Entry)} {b : Builder}
    (hnodes : b.nodes = documentNodes entries) (hmet : b.met = #[0]) (hfresh : Fresh b 1)
    (hsize : b.compounds.size = b.nodes.size)
    (hreadable : ∀ e ∈ entries, ∀ l ∈ e.2.leaves, l.isReadable = true)
    (hdistinct : (entries.map Prod.fst).Nodup) :
    ∃ b', Gives (workOff 0 b.nodes.size) b () b' ∧ Shows ⟨.compound 0, b'.compounds⟩ entries := by
  obtain ⟨b₁, hroot, hmeets⟩ := gives_root hnodes hfresh hreadable hdistinct
  let c : Compound := .map ((foundFrom 1 entries).map fun e => (.text e.1, e.2))
  let b₂ : Builder := { b₁ with compounds := b₁.compounds.setIfInBounds 0 c }
  have hnodes₂ : b₂.nodes = documentNodes entries := hmeets.nodes.trans hnodes
  have hsize₂ : b₂.compounds.size = b₂.nodes.size := by
    rw [Array.size_setIfInBounds, hmeets.size, hsize, ← hmeets.nodes]
  have hcount : b.nodes.size = (nodesFrom 1 entries).length + 1 := by
    rw [hnodes]
    rfl
  have hlists : ∀ e ∈ listsFrom 1 entries, IsList b₂.nodes e :=
    isList_of_mem_listsFrom (hnodes₂ ▸ stands_documentNodes entries) hreadable
  have hmet₂ : b₂.met.toList.drop 1 = (listsFrom 1 entries).map Prod.fst := by
    rw [hmeets.met, hmet]
    rfl
  obtain ⟨b', hgives, hfilled, hothers⟩ :=
    gives_workOff hlists nodup_listsFrom hmet₂ length_listsFrom_le hsize₂
  refine ⟨b', ?_, foundFrom 1 entries, ?_, forall₂_foundFrom hfilled⟩
  · have hturn : b.met[0]? = some 0 := by rw [hmet]; rfl
    have htag : Gives (tagAt 0) b .mapping b :=
      gives_tagAt (n := ⟨.mapping, _⟩) (by rw [hnodes]; rfl)
    rw [hcount]
    refine Gives.bind (a := b) rfl ?_
    rw [hturn]
    exact htag.bind (hroot.bind (Gives.bind (a := ()) rfl hgives))
  · have hroot : 0 ∉ (listsFrom 1 entries).map Prod.fst := fun hmem => by
      obtain ⟨e, he, heq⟩ := List.mem_map.1 hmem
      exact Nat.not_lt_zero _ (heq ▸ lt_of_mem_listsFrom e he)
    have hbound : 0 < b₁.compounds.size := by
      rw [hmeets.size, hsize, hcount]
      exact Nat.succ_pos _
    exact (hothers 0 hroot).trans (Array.getElem?_setIfInBounds_self_of_lt hbound)

/-- **A document is read as the data it was written for.** -/
theorem read_print {entries : List (String × Entry)} (hne : entries ≠ [])
    (hkeys : ∀ e ∈ entries, IsKey e.1) (hdistinct : (entries.map Prod.fst).Nodup)
    (hlists : ∀ e ∈ entries, e.2 ≠ .list [])
    (hreadable : ∀ e ∈ entries, ∀ l ∈ e.2.leaves, l.isReadable = true) :
    ∃ d, read (print entries) = .ok d ∧ Shows d entries := by
  let nodes := documentNodes entries
  let start : Builder :=
    { nodes, compounds := .replicate nodes.size (.list []),
      isMet := .replicate nodes.size false }
  have hfresh : Fresh start 0 := fun p _ hp => by
    rw [Array.getElem?_replicate, if_pos hp]
  have hroot : start.nodes[0]? = some ⟨.mapping, .mapping (placesFrom 1 entries)⟩ := rfl
  obtain ⟨b₁, hvalue, hmeets, hfresh₁⟩ := gives_compound hroot rfl hfresh
  have hmet : b₁.met = #[0] := Array.ext' hmeets.met
  have hsize : b₁.compounds.size = b₁.nodes.size := by
    rw [hmeets.size, hmeets.nodes, Array.size_replicate]
  obtain ⟨b₂, hturns, hshows⟩ := gives_document hmeets.nodes hmet hfresh₁ hsize hreadable hdistinct
  rw [hmeets.nodes] at hturns
  have hbuild : Gives (do
      let v ← valueAt 0
      workOff 0 nodes.size
      return v) start (.compound 0) b₂ := hvalue.bind (hturns.bind (.pure _ _))
  have hdata : build 0 nodes = .ok ⟨.compound 0, b₂.compounds⟩ := by
    have hreturn : ∀ r, r = Except.ok (Value.compound 0, b₂) → (r.bind fun p =>
        pure ⟨p.1, p.2.compounds⟩) = (.ok ⟨.compound 0, b₂.compounds⟩ : Except Fault Data) := by
      rintro _ rfl
      rfl
    exact hreturn _ hbuild
  refine ⟨⟨.compound 0, b₂.compounds⟩, ?_, hshows⟩
  rw [read, compose_print hne hkeys hlists]
  exact hdata

end CrudSchema.Yaml
