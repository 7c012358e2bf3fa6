import Mathlib.Data.String.Basic
import Provenance.Json.Record
import Provenance.Proofs.Json.Documents

/-!
# What written values are read as

A value whose numbers are integers of 64 bits has a document that can be evaluated, and evaluation
gives the value back if the members of its objects are sorted by key (`value?_toTree`). What is read
from a document is always sorted in this way, and its integers have 64 bits
(`all_isCanonical_of_value?`). A record that is written as an object with distinct known keys has
the documents of its members as fields (`ofTree?_toTree`).

## Implementation notes

A record is written with its fields in their order of declaration, not sorted by key. `Value.sorted`
says what evaluation makes of such an object, so that evaluation is one statement about all values
and its result is compared with the value afterwards.
-/

namespace Provenance.Json

namespace Value

mutual

/-- The property holds of a value and of every value in it. -/
def All (p : Value → Prop) : Value → Prop
  | .array items => p (.array items) ∧ AllItems p items
  | .object members => p (.object members) ∧ AllMembers p members
  | v => p v

/-- The property holds of the items and of every value in them. -/
def AllItems (p : Value → Prop) : List Value → Prop
  | [] => True
  | v :: vs => v.All p ∧ AllItems p vs

/-- The property holds of the values of the members and of every value in them. -/
def AllMembers (p : Value → Prop) : List (String × Value) → Prop
  | [] => True
  | (_, v) :: ms => v.All p ∧ AllMembers p ms

end

mutual

/-- The value with the members of each object sorted by key, where the last of several members with
one key counts. -/
def sorted : Value → Value
  | .array items => .array (sortedItems items)
  | .object members => .ofMembers (sortedMembers members)
  | v => v

/-- The items with their objects sorted. -/
def sortedItems : List Value → List Value
  | [] => []
  | v :: vs => v.sorted :: sortedItems vs

/-- The members with the objects in them sorted. -/
def sortedMembers : List (String × Value) → List (String × Value)
  | [] => []
  | (k, v) :: ms => (k, v.sorted) :: sortedMembers ms

end

/-- The value is no number or an integer of 64 bits, signed or not. -/
def IsIntegral : Value → Prop
  | .number (.integer i) => -(2 ^ 63) ≤ i ∧ i < 2 ^ 64
  | .number (.float _) => False
  | _ => True

/-- The value is no object or its keys come in increasing order. -/
def IsOrdered : Value → Prop
  | .object members => (members.map Prod.fst).Pairwise (· < ·)
  | _ => True

/-- The value has no fraction. -/
def IsWhole : Value → Prop
  | .number (.float _) => False
  | _ => True

/-- The value may come of evaluation: an integer has 64 bits, signed or not, and the keys of an
object come in increasing order. -/
def IsCanonical : Value → Prop
  | .number (.integer i) => -(2 ^ 63) ≤ i ∧ i < 2 ^ 64
  | .object members => (members.map Prod.fst).Pairwise (· < ·)
  | _ => True

/-- How deeply arrays and objects are nested in a value. -/
def depth (v : Value) : Nat := v.toTree.depth

variable {key : String} {value : Value} {items : List Value} {members : List (String × Value)}

theorem allItems_iff {p : Value → Prop} : AllItems p items ↔ ∀ v ∈ items, v.All p := by
  induction items with
  | nil => exact iff_of_true trivial nofun
  | cons v vs ih => rw [AllItems, ih, List.forall_mem_cons]

theorem allMembers_iff {p : Value → Prop} : AllMembers p members ↔ ∀ m ∈ members, m.2.All p := by
  induction members with
  | nil => exact iff_of_true trivial nofun
  | cons m ms ih => rw [AllMembers, ih, List.forall_mem_cons]

mutual

theorem All.imp₂ {p q r : Value → Prop} (h : ∀ w, p w → q w → r w) (v : Value) (hp : v.All p)
    (hq : v.All q) : v.All r := by
  match v with
  | .null | .bool _ | .string _ | .number _ => exact h _ hp hq
  | .array items => exact ⟨h _ hp.1 hq.1, AllItems.imp₂ h items hp.2 hq.2⟩
  | .object members => exact ⟨h _ hp.1 hq.1, AllMembers.imp₂ h members hp.2 hq.2⟩

theorem AllItems.imp₂ {p q r : Value → Prop} (h : ∀ w, p w → q w → r w) (items : List Value)
    (hp : AllItems p items) (hq : AllItems q items) : AllItems r items := by
  match items with
  | [] => trivial
  | v :: vs => exact ⟨All.imp₂ h v hp.1 hq.1, AllItems.imp₂ h vs hp.2 hq.2⟩

theorem AllMembers.imp₂ {p q r : Value → Prop} (h : ∀ w, p w → q w → r w)
    (members : List (String × Value)) (hp : AllMembers p members) (hq : AllMembers q members) :
    AllMembers r members := by
  match members with
  | [] => trivial
  | (_, v) :: ms => exact ⟨All.imp₂ h v hp.1 hq.1, AllMembers.imp₂ h ms hp.2 hq.2⟩

end

theorem all_isIntegral {v : Value} (h : v.All IsCanonical) (hwhole : v.All IsWhole) :
    v.All IsIntegral := by
  refine All.imp₂ ?_ v h hwhole
  rintro (_ | _ | ⟨_ | _⟩ | _ | _ | _) hw hw'
  case number.integer => exact hw
  case number.float => exact hw'
  all_goals trivial

theorem all_isOrdered {v : Value} (h : v.All IsCanonical) : v.All IsOrdered := by
  refine All.imp₂ ?_ v h h
  rintro (_ | _ | _ | _ | _ | _) hw -
  case object => exact hw
  all_goals trivial

theorem depthItems_le_iff {n : Nat} :
    Tree.depthItems (treeItems items) ≤ n ↔ ∀ v ∈ items, v.depth ≤ n := by
  induction items with
  | nil => exact iff_of_true (Nat.zero_le n) nofun
  | cons v vs ih => rw [treeItems, Tree.depthItems, Nat.max_le, ih, List.forall_mem_cons, depth]

theorem depthMembers_le_iff {n : Nat} :
    Tree.depthMembers (treeMembers members) ≤ n ↔ ∀ m ∈ members, m.2.depth ≤ n := by
  induction members with
  | nil => exact iff_of_true (Nat.zero_le n) nofun
  | cons m ms ih =>
      rw [treeMembers, Tree.depthMembers, Nat.max_le, ih, List.forall_mem_cons, depth]

/-! ## Evaluation -/

theorem number?_ofInt {i : Int} (h : -(2 ^ 63) ≤ i ∧ i < 2 ^ 64) :
    (Numeral.ofInt i).number? = some (.integer i) := by
  rw [Numeral.number?, Numeral.integer?_ofInt]
  exact if_pos h

mutual

/-- A document without fractions and large numbers is evaluated to the value it was written from,
with sorted members. -/
theorem value?_toTree (v : Value) (h : v.All IsIntegral) : v.toTree.value? = some v.sorted := by
  match v with
  | .null | .bool _ | .string _ => rfl
  | .number (.integer i) =>
      have hnumber := number?_ofInt h
      exact congrArg (Option.map Value.number) hnumber
  | .number (.float x) => exact absurd h not_false
  | .array items => rw [toTree, Tree.value?, valueItems?_treeItems items h.2, sorted, Option.map_some]
  | .object members =>
      rw [toTree, Tree.value?, valueMembers?_treeMembers members h.2, sorted, Option.map_some]

theorem valueItems?_treeItems (items : List Value) (h : AllItems IsIntegral items) :
    Tree.valueItems? (treeItems items) = some (sortedItems items) := by
  match items with
  | [] => rfl
  | v :: vs =>
      rw [treeItems, Tree.valueItems?, value?_toTree v h.1, valueItems?_treeItems vs h.2]
      rfl

theorem valueMembers?_treeMembers (members : List (String × Value))
    (h : AllMembers IsIntegral members) :
    Tree.valueMembers? (treeMembers members) = some (sortedMembers members) := by
  match members with
  | [] => rfl
  | (k, v) :: ms =>
      rw [treeMembers, Tree.valueMembers?, value?_toTree v h.1, valueMembers?_treeMembers ms h.2]
      rfl

end

/-! ## Sorted members -/

/-- A key above all others is put at the end. -/
theorem insert_of_forall_lt (h : ∀ m ∈ members, m.1 < key) :
    insert key value members = members ++ [(key, value)] := by
  induction members with
  | nil => rfl
  | cons m members ih =>
      have hlt : m.1 < key := h m List.mem_cons_self
      rw [insert, if_neg (lt_asymm hlt), if_neg (ne_of_gt hlt),
        ih fun m' hm' => h m' (List.mem_cons_of_mem m hm')]
      rfl

theorem foldl_insert (sorted : List (String × Value))
    (h : ((sorted ++ members).map Prod.fst).Pairwise (· < ·)) :
    members.foldl (fun sorted (k, v) => insert k v sorted) sorted = sorted ++ members := by
  induction members generalizing sorted with
  | nil => rw [List.append_nil]; rfl
  | cons m members ih =>
      have hbefore : ∀ m' ∈ sorted, m'.1 < m.1 := by
        rw [List.map_append, List.pairwise_append] at h
        exact fun m' hm' => h.2.2 m'.1 (List.mem_map_of_mem hm') m.1 List.mem_cons_self
      change List.foldl _ (insert m.1 m.2 sorted) members = _
      rw [insert_of_forall_lt hbefore]
      rw [List.append_cons] at h
      exact (ih _ h).trans (List.append_cons sorted m members).symm

/-- Members in increasing order of their keys stay as they are. -/
theorem ofMembers_of_pairwise (h : (members.map Prod.fst).Pairwise (· < ·)) :
    ofMembers members = .object members :=
  congrArg Value.object (foldl_insert [] h)

theorem mem_insert {m : String × Value} (h : m ∈ insert key value members) :
    m = (key, value) ∨ m ∈ members := by
  induction members with
  | nil => exact Or.inl (List.mem_singleton.mp h)
  | cons m' members ih =>
      rw [insert] at h
      split_ifs at h
      · exact List.mem_cons.mp h
      · exact (List.mem_cons.mp h).imp_right (List.mem_cons_of_mem m')
      · obtain rfl | h := List.mem_cons.mp h
        · exact Or.inr List.mem_cons_self
        · exact (ih h).imp_right (List.mem_cons_of_mem m')

/-- Members stay sorted when one is put where its key belongs. -/
theorem pairwise_insert (h : (members.map Prod.fst).Pairwise (· < ·)) :
    ((insert key value members).map Prod.fst).Pairwise (· < ·) := by
  induction members with
  | nil => exact List.pairwise_singleton _ key
  | cons m members ih =>
      have hsorted := h
      rw [List.map_cons, List.pairwise_cons] at h
      rw [insert]
      split_ifs with hlt heq
      · refine List.pairwise_cons.mpr ⟨?_, hsorted⟩
        rw [List.map_cons, List.forall_mem_cons]
        exact ⟨hlt, fun k hk => lt_trans hlt (h.1 k hk)⟩
      · exact List.pairwise_cons.mpr ⟨heq ▸ h.1, h.2⟩
      · refine List.pairwise_cons.mpr ⟨?_, ih h.2⟩
        rw [List.forall_mem_map]
        intro m' hm'
        obtain rfl | hm' := mem_insert hm'
        · exact lt_of_le_of_ne (not_lt.mp hlt) (Ne.symm heq)
        · exact h.1 m'.1 (List.mem_map_of_mem hm')

/-- Members that are put in one after the other end up sorted, and nothing else is among them. -/
theorem foldl_insert_spec (sorted : List (String × Value))
    (h : (sorted.map Prod.fst).Pairwise (· < ·)) :
    let all := members.foldl (fun sorted (k, v) => insert k v sorted) sorted
    (all.map Prod.fst).Pairwise (· < ·) ∧ ∀ m ∈ all, m ∈ sorted ∨ m ∈ members := by
  induction members generalizing sorted with
  | nil => exact ⟨h, fun m hm => Or.inl hm⟩
  | cons m members ih =>
      obtain ⟨hpairwise, hmem⟩ := ih _ (pairwise_insert h)
      refine ⟨hpairwise, fun m' hm' => ?_⟩
      obtain hm' | hm' := hmem m' hm'
      · obtain rfl | hm' := mem_insert hm'
        · exact Or.inr List.mem_cons_self
        · exact Or.inl hm'
      · exact Or.inr (List.mem_cons_of_mem m hm')

theorem all_ofMembers {members : List (String × Value)} (h : AllMembers IsCanonical members) :
    (ofMembers members).All IsCanonical := by
  obtain ⟨hpairwise, hmem⟩ := @foldl_insert_spec members [] List.Pairwise.nil
  refine ⟨hpairwise, allMembers_iff.mpr fun m hm => ?_⟩
  obtain hm | hm := hmem m hm
  · exact absurd hm List.not_mem_nil
  · exact allMembers_iff.mp h m hm

theorem isCanonical_of_number? {n : Numeral} {x : Number} (h : n.number? = some x) :
    (number x).IsCanonical := by
  cases x with
  | float => trivial
  | integer i =>
      rw [Numeral.number?] at h
      split at h
      · split_ifs at h with hrange
        · obtain rfl := Number.integer.inj (Option.some.inj h)
          exact hrange
        · cases hfloat : n.float? <;> simp [hfloat] at h
      · cases hfloat : n.float? <;> simp [hfloat] at h

mutual

/-- What is read from a document has integers of 64 bits and sorted members. -/
theorem all_isCanonical_of_value? (t : Tree) (v : Value) (h : t.value? = some v) :
    v.All IsCanonical := by
  match t with
  | .null | .bool _ =>
      cases h
      trivial
  | .numeral n =>
      obtain ⟨x, hx, rfl⟩ := Option.map_eq_some_iff.mp h
      exact isCanonical_of_number? hx
  | .string s =>
      obtain ⟨text, -, rfl⟩ := Option.map_eq_some_iff.mp h
      trivial
  | .array items =>
      obtain ⟨vs, hvs, rfl⟩ := Option.map_eq_some_iff.mp h
      exact ⟨trivial, all_isCanonical_of_valueItems? items vs hvs⟩
  | .object members =>
      obtain ⟨ms, hms, rfl⟩ := Option.map_eq_some_iff.mp h
      exact all_ofMembers (all_isCanonical_of_valueMembers? members ms hms)

theorem all_isCanonical_of_valueItems? (items : List Tree) (vs : List Value)
    (h : Tree.valueItems? items = some vs) : AllItems IsCanonical vs := by
  match items with
  | [] =>
      cases h
      trivial
  | t :: ts =>
      simp only [Tree.valueItems?, bind, Option.bind_eq_some_iff] at h
      obtain ⟨v, hv, vs', hvs, hsome⟩ := h
      cases hsome
      exact ⟨all_isCanonical_of_value? t v hv, all_isCanonical_of_valueItems? ts vs' hvs⟩

theorem all_isCanonical_of_valueMembers? (members : List (Option String × Tree))
    (ms : List (String × Value)) (h : Tree.valueMembers? members = some ms) :
    AllMembers IsCanonical ms := by
  match members with
  | [] =>
      cases h
      trivial
  | (k, t) :: ts =>
      simp only [Tree.valueMembers?, bind, Option.bind_eq_some_iff] at h
      obtain ⟨key, -, v, hv, ms', hms, hsome⟩ := h
      cases hsome
      exact ⟨all_isCanonical_of_value? t v hv, all_isCanonical_of_valueMembers? ts ms' hms⟩

end

mutual

theorem sorted_eq_self (v : Value) (h : v.All IsOrdered) : v.sorted = v := by
  match v with
  | .null | .bool _ | .string _ | .number _ => rfl
  | .array items => rw [sorted, sortedItems_eq_self items h.2]
  | .object members =>
      rw [sorted, sortedMembers_eq_self members h.2, ofMembers_of_pairwise h.1]

theorem sortedItems_eq_self (items : List Value) (h : AllItems IsOrdered items) :
    sortedItems items = items := by
  match items with
  | [] => rfl
  | v :: vs => rw [sortedItems, sorted_eq_self v h.1, sortedItems_eq_self vs h.2]

theorem sortedMembers_eq_self (members : List (String × Value))
    (h : AllMembers IsOrdered members) : sortedMembers members = members := by
  match members with
  | [] => rfl
  | (k, v) :: ms => rw [sortedMembers, sorted_eq_self v h.1, sortedMembers_eq_self ms h.2]

end

/-- A value without fractions is read back from its document below `level` arrays and objects, as
long as the limit of the depth is not exceeded. -/
theorem valueAt?_toTree {v : Value} {level : Nat} (hdepth : level + v.depth ≤ Tree.depthLimit)
    (hcanonical : v.All IsCanonical) (hwhole : v.All IsWhole) :
    v.toTree.valueAt? level = some v := by
  rw [Tree.valueAt?]
  refine (if_pos hdepth).trans ?_
  rw [value?_toTree v (all_isIntegral hcanonical hwhole), sorted_eq_self v (all_isOrdered hcanonical)]

end Value

/-! ## Records -/

namespace Record

variable {names : List String} {members : List (String × Value)}

theorem any_key_eq_false {fields : List (String × Tree)} {key : String}
    (h : key ∉ fields.map Prod.fst) : fields.any (·.1 = key) = false := by
  rw [List.any_eq_false]
  intro field hfield heq
  rw [decide_eq_true_eq] at heq
  exact h (heq ▸ List.mem_map_of_mem hfield)

/-- Members with distinct known keys are all kept. -/
theorem ofMembers?_treeMembers (hnodup : (members.map Prod.fst).Nodup)
    (hknown : ∀ m ∈ members, m.1 ∈ names) :
    ofMembers? names (treeMembers members) = some (members.map fun m => (m.1, m.2.toTree)) := by
  induction members with
  | nil => rfl
  | cons m members ih =>
      rw [List.map_cons, List.nodup_cons] at hnodup
      have hfresh : m.1 ∉ (members.map fun m => (m.1, m.2.toTree)).map Prod.fst := by
        rw [List.map_map]
        exact hnodup.1
      have hrest := ih hnodup.2 fun m' hm' => hknown m' (List.mem_cons_of_mem m hm')
      rw [treeMembers, ofMembers?, hrest]
      simp only [bind, Option.bind_some, if_pos (hknown m List.mem_cons_self),
        any_key_eq_false hfresh, Bool.false_eq_true, if_false, List.map_cons]

/-- The field of a record is the document of the member with its name. -/
theorem ofTree?_toTree (hnodup : (members.map Prod.fst).Nodup)
    (hknown : ∀ m ∈ members, m.1 ∈ names) :
    ∃ r, ofTree? names (Value.object members).toTree = some r ∧
      ∀ name, r.get? name = ((Value.object members).get? name).map Value.toTree := by
  refine ⟨⟨false, members.map fun m => (m.1, m.2.toTree)⟩, ?_, ?_⟩
  · rw [Value.toTree, ofTree?, ofMembers?_treeMembers hnodup hknown, Option.map_some]
  · intro name
    rw [get?, Value.get?, List.find?_map, Option.map_map, Option.map_map]
    rfl

/-- A field that is left out when it is absent is read back. -/
theorem defaulted_optional {α : Type} {r : Record} {name : String} {f : α → Value}
    {read : Tree → Option α} {o : Option α} (hget : r.get? name = o.map fun a => (f a).toTree)
    (hread : ∀ a, Tree.nullable? read (f a).toTree = some (some a)) :
    r.defaulted name none (Tree.nullable? read) = some o := by
  rw [defaulted, hget]
  cases o with
  | none => rfl
  | some a => exact hread a

end Record

namespace Tree

/-- A word is read back. -/
theorem word?_toTree (n : UInt32) : word? (Value.word n).toTree = some n := by
  have hword : 0 ≤ (n.toNat : Int) ∧ (n.toNat : Int) < 2 ^ 32 := by
    have hlt := n.toNat_lt
    omega
  have htree : (Value.word n).toTree = .numeral (.ofInt n.toNat) := rfl
  rw [htree, word?, Numeral.integer?_ofInt, Option.bind_some, if_pos hword, Int.toNat_natCast,
    UInt32.ofNat_toNat]

/-- Items are read back one by one. -/
theorem items?_toTree {α : Type} {f : α → Value} {read : Tree → Option α}
    (hread : ∀ a, read (f a).toTree = some a) (items : List α) :
    items? read (Value.list f items).toTree = some items := by
  change (treeItems (items.map f)).mapM read = some items
  induction items with
  | nil => rfl
  | cons a items ih =>
      rw [List.map_cons, treeItems, List.mapM_cons, hread, ih]
      rfl

/-- A text or null is read back. -/
theorem nullable?_option_string (s : Option String) :
    nullable? text? (Value.option .string s).toTree = some s := by
  cases s <;> rfl

end Tree

end Provenance.Json
