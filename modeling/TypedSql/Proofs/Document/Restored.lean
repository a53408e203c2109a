import TypedSql.Document.Writer
import TypedSql.Proofs.Except
import TypedSql.Proofs.Json.Parse
import TypedSql.Proofs.NameMap

namespace TypedSql

open Json (Reading)

/-- That a decoder gives a value back from the document that is written for it. -/
structure Restored {α : Type} (decode : Decoder α) (j : Json) (a : α) : Prop where
  plain : j.Plain
  present : j ≠ .null
  read : ∀ held, decode ⟨j.reading, held⟩ = .ok a

def Decoder.Restores {α : Type} (n : Nat) (decode : Decoder α) (j : Json) (a : α) : Prop :=
  j.depth < n → Restored decode j a

namespace Json

theorem plainItems_iff {items : List Json} : PlainItems items ↔ ∀ j ∈ items, j.Plain := by
  induction items with
  | nil => simp [PlainItems]
  | cons item rest ih => rw [PlainItems, ih, List.forall_mem_cons]

theorem plainMembers_iff {members : List (String × Json)} :
    PlainMembers members ↔ ∀ e ∈ members, e.2.Plain := by
  induction members with
  | nil => simp [PlainMembers]
  | cons member rest ih => rw [PlainMembers, ih, List.forall_mem_cons]

end Json

namespace Decoder.Restores
variable {α β : Type} {n : Nat} {decode : Decoder α} {j : Json} {a : α}

theorem lower (restores : decode.Restores (n + 1) j a) : decode.Restores n j a :=
  fun shallow => restores (Nat.lt_succ_of_lt shallow)

theorem map {f : α → β} (restores : decode.Restores n j a) :
    Decoder.Restores n (fun s => (decode s).map f) j (f a) := by
  intro shallow
  obtain ⟨plain, present, read⟩ := restores shallow
  exact ⟨plain, present, fun held => by rw [read held]; rfl⟩

theorem string {s : String} : Decoder.string.Restores n (.str s) s :=
  fun _ => ⟨trivial, nofun, fun _ => rfl⟩

theorem bool {b : Bool} : Decoder.bool.Restores n (.bool b) b :=
  fun _ => ⟨trivial, nofun, fun _ => rfl⟩

theorem uint32 {i : UInt32} : Decoder.uint32.Restores n (.nat i.toNat) i := by
  intro _
  have small : i.toNat < UInt32.size := i.toNat_lt_size
  have fits : i.toNat < UInt64.size := lt_trans small (by decide)
  refine ⟨fits, nofun, fun held => ?_⟩
  simp [Decoder.uint32, Json.reading, Decoder.nat, small, Except.map]

theorem uint64 {i : UInt64} : Decoder.uint64.Restores n (.ofUInt64 i) i := by
  intro _
  have small : i.toNat < UInt64.size := i.toNat_lt_size
  refine ⟨small, nofun, fun held => ?_⟩
  simp [Decoder.uint64, Json.ofUInt64, Json.reading, Decoder.nat, small, Except.map]

theorem gated {accept : String → Except NameError α} {name : String}
    (accepted : accept name = .ok a) : (Decoder.gated accept).Restores n (.str name) a := by
  refine fun _ => ⟨trivial, nofun, fun held => ?_⟩
  have same : Decoder.gated accept ⟨(Json.str name).reading, held⟩ =
      (accept name).mapError .name := rfl
  rw [same, accepted]
  rfl

theorem list {write : α → Json} {as : List α}
    (each : ∀ a ∈ as, decode.Restores n (write a) a) :
    (Decoder.list decode).Restores (n + 1) (.arr (as.map write)) as := by
  intro shallow
  have below : ∀ a ∈ as, (write a).depth < n := List.forall_mem_map.mp (Json.depth_lt_of_arr shallow)
  have restored : ∀ a ∈ as, Restored decode (write a) a := fun a member =>
    each a member (below a member)
  refine ⟨?_, nofun, fun held => ?_⟩
  · rw [Json.Plain, Json.plainItems_iff, List.forall_mem_map]
    exact fun a member => (restored a member).plain
  · rw [Json.reading, Json.readingItems_eq]
    refine Except.mapM_eq_ok.mpr ?_
    rw [List.map_map, List.forall₂_map_left_iff, List.forall₂_same]
    exact fun a member => (restored a member).read held

theorem nameMap {write : α → Json} {m : NameMap α}
    (each : ∀ a ∈ m.values, decode.Restores n (write a) a) :
    (Decoder.nameMap decode).Restores (n + 1) (m.toJson write) m := by
  intro shallow
  have below : ∀ e ∈ m.entries, (write e.2).depth < n :=
    List.forall_mem_map.mp (Json.depth_lt_of_obj shallow)
  have restored : ∀ e ∈ m.entries, Restored decode (write e.2) e.2 := fun e member =>
    each e.2 (List.mem_map_of_mem member) (below e member)
  refine ⟨?_, nofun, fun held => ?_⟩
  · rw [NameMap.toJson, Json.Plain, Json.plainMembers_iff, List.forall_mem_map]
    exact fun e member => (restored e member).plain
  · have read : (m.entries.map fun e => (Reading.text e.1, (write e.2).reading)).mapM
        (Decoder.entry decode held) = .ok m.entries := by
      refine Except.mapM_eq_ok.mpr ?_
      rw [List.forall₂_map_left_iff, List.forall₂_same]
      intro e member
      simp only [Decoder.entry, Reading.text?, (restored e member).read held]
      rfl
    rw [NameMap.toJson, Json.reading, Json.readingMembers_eq, List.map_map]
    show ((m.entries.map fun e => (Reading.text e.1, (write e.2).reading)).mapM
      (Decoder.entry decode held)).map NameMap.ofList = .ok m
    rw [read]
    exact congrArg Except.ok m.ofList_entries

section Choices
variable {variants : List (Variant α)} {tag : String}

theorem choice {content : Json}
    (known : (variants.find? fun v => v.tag == tag) = some (.carrying tag decode))
    (restores : decode.Restores n content a) :
    (Decoder.choice variants).Restores (n + 1) (.tagged tag content) a := by
  intro shallow
  have below : content.depth < n := Json.depth_lt_of_obj shallow _ (List.mem_singleton_self _)
  obtain ⟨plain, -, read⟩ := restores below
  refine ⟨⟨plain, trivial⟩, nofun, fun held => ?_⟩
  have opened : (Json.tagged tag content).reading = .object [(.text tag, content.reading)] := rfl
  have given : (Variant.carrying tag decode).withContent ⟨content.reading, held⟩ = .ok a := read held
  have named (held : Bool) : Decoder.string ⟨.text tag, held⟩ = .ok tag := rfl
  rw [opened]
  simp only [Decoder.choice, List.isEmpty_nil, Bool.not_true, Bool.and_false, Bool.false_eq_true,
    ↓reduceIte, Except.bind_eq_ok]
  refine ⟨tag, named held, ?_⟩
  simp only [known, Except.bind_eq_ok]
  exact ⟨a, given, rfl⟩

theorem choice_plain (known : (variants.find? fun v => v.tag == tag) = some (.plain tag a)) :
    (Decoder.choice variants).Restores n (.str tag) a := by
  refine fun _ => ⟨trivial, nofun, fun held => ?_⟩
  simp [Json.reading, Decoder.choice, known, Variant.alone]

end Choices

end Decoder.Restores

end TypedSql
