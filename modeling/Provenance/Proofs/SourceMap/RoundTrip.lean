import Provenance.Proofs.Json.Reading
import Provenance.SourceMap

/-!
# Source maps written and read back

A source map is read back from its JSON text, whatever its texts are and whichever of its optional
fields are absent, and so is a payload, which stays an object or a text (`json_round_trip`).

## Implementation notes

The members of a written map are some of its fields in their order, so their names are distinct and
known without looking at which fields are absent.
-/

namespace Provenance

open Provenance.Json

namespace SourceMap

/-- The members that a map is written with. -/
def members (m : SourceMap) : List (String × Value) :=
  ("version", .word m.version) :: optionalMember "file" .string m.file ++
    [("sources", .list .string m.sources), ("names", .list .string m.names),
      ("mappings", .string m.mappings)] ++
    optionalMember "sourceRoot" .string m.sourceRoot ++
    optionalMember "sourcesContent" (.list (.option .string)) m.sourcesContent

theorem toValue_eq (m : SourceMap) : m.toValue = .object m.members := rfl

/-! ## Names of the members -/

theorem keys_optionalMember {α : Type} (key : String) (f : α → Value) (o : Option α) :
    ((optionalMember key f o).map Prod.fst).Sublist [key] := by
  cases o with
  | none => exact List.nil_sublist _
  | some a => exact List.Sublist.refl _

/-- The members stand in the order of the fields. -/
theorem keys_members (m : SourceMap) : (m.members.map Prod.fst).Sublist fieldNames := by
  have hfile := keys_optionalMember "file" Value.string m.file
  have hroot := keys_optionalMember "sourceRoot" Value.string m.sourceRoot
  have hcontents :=
    keys_optionalMember "sourcesContent" (Value.list (.option .string)) m.sourcesContent
  rw [members, List.map_append, List.map_append, List.map_append, List.map_cons]
  exact (((hfile.cons_cons "version").append (List.Sublist.refl _)).append hroot).append hcontents

theorem nodup_keys (m : SourceMap) : (m.members.map Prod.fst).Nodup :=
  List.Nodup.sublist m.keys_members (by decide)

theorem known_of_mem_members {m : SourceMap} {member : String × Value} (h : member ∈ m.members) :
    member.1 ∈ fieldNames :=
  m.keys_members.subset (List.mem_map_of_mem h)

/-- Each field is found under its name. -/
theorem get?_toValue (m : SourceMap) :
    m.toValue.get? "version" = some (.word m.version) ∧
      m.toValue.get? "file" = m.file.map .string ∧
      m.toValue.get? "sources" = some (.list .string m.sources) ∧
      m.toValue.get? "names" = some (.list .string m.names) ∧
      m.toValue.get? "mappings" = some (.string m.mappings) ∧
      m.toValue.get? "sourceRoot" = m.sourceRoot.map .string ∧
      m.toValue.get? "sourcesContent" = m.sourcesContent.map (.list (.option .string)) := by
  obtain ⟨version, file, sources, names, mappings, sourceRoot, contents⟩ := m
  cases file <;> cases sourceRoot <;> cases contents <;>
    exact ⟨rfl, rfl, rfl, rfl, rfl, rfl, rfl⟩

/-! ## Reading -/

/-- A map is read back from the document that it is written as. -/
theorem ofTree?_toTree (m : SourceMap) : ofTree? m.toValue.toTree = some m := by
  obtain ⟨r, hr, hget⟩ := Record.ofTree?_toTree m.nodup_keys fun _ => known_of_mem_members
  obtain ⟨hversion, hfile, hsources, hnames, hmappings, hroot, hcontents⟩ := m.get?_toValue
  rw [toValue_eq] at hversion hfile hsources hnames hmappings hroot hcontents
  have hreadVersion : r.required "version" Tree.word? = some m.version := by
    rw [Record.required, hget, hversion, Option.map_some, Option.bind_some, Tree.word?_toTree]
  have hreadFile : r.defaulted "file" none (Tree.nullable? Tree.text?) = some m.file := by
    refine Record.defaulted_optional (f := .string) ?_ fun _ => rfl
    rw [hget, hfile, Option.map_map]
    rfl
  have hreadSources : r.defaulted "sources" [] (Tree.items? Tree.text?) = some m.sources := by
    rw [Record.defaulted, hget, hsources]
    exact Tree.items?_toTree (fun _ => rfl) m.sources
  have hreadNames : r.defaulted "names" [] (Tree.items? Tree.text?) = some m.names := by
    rw [Record.defaulted, hget, hnames]
    exact Tree.items?_toTree (fun _ => rfl) m.names
  have hreadMappings : r.required "mappings" Tree.text? = some m.mappings := by
    rw [Record.required, hget, hmappings]
    rfl
  have hreadRoot : r.defaulted "sourceRoot" none (Tree.nullable? Tree.text?) =
      some m.sourceRoot := by
    refine Record.defaulted_optional (f := .string) ?_ fun _ => rfl
    rw [hget, hroot, Option.map_map]
    rfl
  have hreadContents : r.defaulted "sourcesContent" none
      (Tree.nullable? (Tree.items? (Tree.nullable? Tree.text?))) = some m.sourcesContent := by
    refine Record.defaulted_optional (f := .list (.option .string)) ?_ fun contents => ?_
    · rw [hget, hcontents, Option.map_map]
      rfl
    · exact congrArg (Option.map some) (Tree.items?_toTree Tree.nullable?_option_string contents)
  rw [ofTree?, toValue_eq, hr]
  simp only [bind, Option.bind_some, hreadVersion, hreadFile, hreadSources, hreadNames,
    hreadMappings, hreadRoot, hreadContents]
  rfl

/-- A map is read from the text that it is written as. -/
theorem ofJson?_toJson (m : SourceMap) : ofJson? m.toJson = some m := by
  rw [ofJson?, toJson, Tree.ofText?_compact, Option.bind_some, ofTree?_toTree]

/-! ## Payloads -/

/-- The values of the members are a word, texts, and lists of texts that may have gaps. -/
theorem forall_mem_members {P : Value → Prop} (hword : ∀ n, P (.word n))
    (hstring : ∀ s, P (.string s)) (hlist : ∀ texts, P (.list .string texts))
    (hcontents : ∀ texts, P (.list (.option .string) texts)) (m : SourceMap) :
    ∀ member ∈ m.members, P member.2 := by
  have hoptional {α : Type} {key : String} {f : α → Value} (hf : ∀ a, P (f a)) (o : Option α) :
      ∀ member ∈ optionalMember key f o, P member.2 := by
    cases o with
    | none => exact nofun
    | some a => exact List.forall_mem_singleton.mpr (hf a)
  simp only [members, List.forall_mem_append, List.forall_mem_cons]
  exact ⟨⟨⟨⟨hword _, hoptional hstring _⟩, hlist _, hlist _, hstring _, nofun⟩,
    hoptional hstring _⟩, hoptional hcontents _⟩

theorem isIntegral_list {α : Type} {f : α → Value} (hf : ∀ a, (f a).All Value.IsIntegral)
    (items : List α) : (Value.list f items).All Value.IsIntegral := by
  refine ⟨trivial, Value.allItems_iff.mpr ?_⟩
  rw [List.forall_mem_map]
  exact fun a _ => hf a

theorem depth_list_le {α : Type} {f : α → Value} (hf : ∀ a, (f a).depth ≤ 0) (items : List α) :
    (Value.list f items).depth ≤ 1 := by
  refine Nat.succ_le_succ (Value.depthItems_le_iff.mpr ?_)
  rw [List.forall_mem_map]
  exact fun a _ => hf a

/-- A written map can be evaluated. -/
theorem isSome_valueAt?_toTree (m : SourceMap) : (m.toValue.toTree.valueAt? 0).isSome = true := by
  have hword (n : UInt32) : (Value.word n).All Value.IsIntegral := by
    have hlt := n.toNat_lt
    change -(2 ^ 63) ≤ (n.toNat : Int) ∧ (n.toNat : Int) < 2 ^ 64
    omega
  have hintegral : m.toValue.All Value.IsIntegral := by
    refine ⟨trivial, Value.allMembers_iff.mpr (m.forall_mem_members hword (fun _ => trivial)
      (isIntegral_list fun _ => trivial) (isIntegral_list fun s => ?_))⟩
    cases s <;> exact trivial
  have hdepth : m.toValue.depth ≤ 2 := by
    refine Nat.succ_le_succ (Value.depthMembers_le_iff.mpr (forall_mem_members
      (P := fun v => v.depth ≤ 1) (fun _ => Nat.zero_le 1) (fun _ => Nat.zero_le 1)
      (depth_list_le fun _ => Nat.le_refl 0) (depth_list_le fun s => ?_) m))
    cases s <;> exact Nat.le_refl 0
  have hlimit : 0 + m.toValue.toTree.depth ≤ Tree.depthLimit := by
    rw [Nat.zero_add]
    exact Nat.le_trans hdepth (by decide)
  rw [Tree.valueAt?, if_pos hlimit, Value.value?_toTree _ hintegral]
  rfl

/-- A payload is read back from the document that it is written as. -/
theorem ofTreeAt?_toTree (p : MapPayload) : MapPayload.ofTreeAt? 0 p.toValue.toTree = some p := by
  cases p with
  | object m =>
      obtain ⟨v, hv⟩ := Option.isSome_iff_exists.mp m.isSome_valueAt?_toTree
      change MapPayload.ofTreeAt? 0 m.toValue.toTree = _
      rw [MapPayload.ofTreeAt?, hv, m.ofTree?_toTree]
      rfl
  | text s => rfl

/-- A map is read back from its JSON text, and a payload from its own as the object or the text that
it is. A payload carries the same map whether it holds the map or the text of the map. -/
theorem json_round_trip (m : SourceMap) (p : MapPayload) :
    ofJson? m.toJson = some m ∧ MapPayload.ofJson? p.toValue.compact = some p ∧
      (MapPayload.text m.toJson).sourceMap? = some m ∧
      (MapPayload.object m).sourceMap? = some m := by
  have hmap := m.ofJson?_toJson
  have hpayload : MapPayload.ofJson? p.toValue.compact = some p := by
    rw [MapPayload.ofJson?, Tree.ofText?_compact, Option.bind_some, ofTreeAt?_toTree]
  exact ⟨hmap, hpayload, hmap, rfl⟩

end SourceMap

end Provenance
