import TypedSql.Json.Parser
import TypedSql.Proofs.Json.Reading
import TypedSql.Proofs.Json.Scan

namespace TypedSql.Json

namespace Parse
variable {limit : Nat} {opened : List Open}

theorem bounded_list (limit : Nat) (opened : List Open) (items : List Json) :
    bounded limit opened (.list (Reading.ofItems (limit - (opened.length + 1)) items)) =
      Reading.ofJson (limit - opened.length) (.arr items) := by
  by_cases room : opened.length < limit
  · have inner : limit - opened.length = limit - (opened.length + 1) + 1 := by omega
    rw [bounded, if_pos room, inner, Reading.ofJson]
  · have none : limit - opened.length = 0 := by omega
    rw [bounded, if_neg room, none, Reading.isSound, soundItems_ofItems]
    rfl

theorem bounded_object (limit : Nat) (opened : List Open) (members : List (String × Json)) :
    bounded limit opened (.object (Reading.ofMembers (limit - (opened.length + 1)) members)) =
      Reading.ofJson (limit - opened.length) (.obj members) := by
  by_cases room : opened.length < limit
  · have inner : limit - opened.length = limit - (opened.length + 1) + 1 := by omega
    rw [bounded, if_pos room, inner, Reading.ofJson]
  · have none : limit - opened.length = 0 := by omega
    rw [bounded, if_neg room, none, Reading.isSound, soundMembers_ofMembers]
    rfl

mutual

theorem foldl_written (j : Json) (opened : List Open) {await : Await}
    (ready : await = .value ∨ await = .valueOrClose) :
    j.written.foldl (step limit) (.going opened await) =
      complete (Reading.ofJson (limit - opened.length) j) opened := by
  cases j with
  | arr items =>
    have begun : step limit (.going opened await) .arrayOpen =
        .going (.array [] :: opened) .valueOrClose := by rcases ready with rfl | rfl <;> rfl
    rw [written, List.foldl_cons, begun, List.foldl_append, ← bounded_list]
    cases items with
    | nil => rfl
    | cons item rest =>
      rw [foldl_writtenItems (item :: rest) (List.cons_ne_nil _ _) opened [] (.inr rfl)]
      simp [step]
  | obj members =>
    have begun : step limit (.going opened await) .objectOpen =
        .going (.object [] :: opened) .keyOrClose := by rcases ready with rfl | rfl <;> rfl
    rw [written, List.foldl_cons, begun, List.foldl_append, ← bounded_object]
    cases members with
    | nil => rfl
    | cons member rest =>
      rw [foldl_writtenMembers (member :: rest) (List.cons_ne_nil _ _) opened [] (.inr rfl)]
      simp [step]
  | _ => rcases ready with rfl | rfl <;> rfl
termination_by structural j

theorem foldl_writtenItems (items : List Json) (nonempty : items ≠ []) (opened : List Open)
    (before : List Reading) {await : Await} (ready : await = .value ∨ await = .valueOrClose) :
    ([Token.comma].intercalate (writtenItems items)).foldl (step limit)
        (.going (.array before :: opened) await) =
      .going (.array ((Reading.ofItems (limit - (opened.length + 1)) items).reverse ++ before)
        :: opened) .separator := by
  cases items with
  | nil => exact absurd rfl nonempty
  | cons item rest =>
    have first := foldl_written item (.array before :: opened) ready
    cases rest with
    | nil =>
      rw [writtenItems, writtenItems, List.intercalate_singleton, first]
      rfl
    | cons next rest =>
      have others := foldl_writtenItems (next :: rest) (List.cons_ne_nil _ _) opened
        (Reading.ofJson (limit - (opened.length + 1)) item :: before) (.inl rfl)
      rw [writtenItems] at others ⊢
      rw [writtenItems, List.intercalate_cons_cons, List.append_assoc, List.foldl_append, first,
        List.foldl_append]
      refine Eq.trans others ?_
      simp [Reading.ofItems]
termination_by structural items

theorem foldl_writtenMembers (members : List (String × Json)) (nonempty : members ≠ [])
    (opened : List Open) (before : List (Reading × Reading)) {await : Await}
    (ready : await = .key ∨ await = .keyOrClose) :
    ([Token.comma].intercalate (writtenMembers members)).foldl (step limit)
        (.going (.object before :: opened) await) =
      .going (.object ((Reading.ofMembers (limit - (opened.length + 1)) members).reverse ++ before)
        :: opened) .separator := by
  cases members with
  | nil => exact absurd rfl nonempty
  | cons member rest =>
    obtain ⟨key, value⟩ := member
    have named : (Token.scalar (.text key) :: .colon :: value.written).foldl (step limit)
          (.going (.object before :: opened) await) =
        .going (.object ((.text key, Reading.ofJson (limit - (opened.length + 1)) value) :: before)
          :: opened) .separator := by
      have first := foldl_written value (.member before (.text key) :: opened) (.inl rfl)
      rcases ready with rfl | rfl <;> exact first
    cases rest with
    | nil =>
      rw [writtenMembers, writtenMembers, List.intercalate_singleton, named]
      rfl
    | cons next rest =>
      have others := foldl_writtenMembers (next :: rest) (List.cons_ne_nil _ _) opened
        ((.text key, Reading.ofJson (limit - (opened.length + 1)) value) :: before) (.inl rfl)
      rw [writtenMembers] at others ⊢
      rw [writtenMembers, List.intercalate_cons_cons, List.append_assoc, List.foldl_append, named,
        List.foldl_append]
      refine Eq.trans others ?_
      simp [Reading.ofMembers]
termination_by structural members

end

end Parse
theorem Text.read_of_scans {limit : Nat} {j : Json} {text : String}
    (scans : Scans text.toList j.written) : Text.read limit text = ⟨Reading.ofJson limit j, true⟩ := by
  have taken : tokens text = j.written := by
    rw [tokens, Scan.start, ← Scan.finish_settle, scans []]
    simp [Scan.finish]
  rw [Text.read, taken, Parse.start, Parse.foldl_written j [] (.inl rfl)]
  rfl

theorem Text.read_compact (limit : Nat) {j : Json} (plain : j.Plain) :
    Text.read limit j.compact = ⟨Reading.ofJson limit j, true⟩ :=
  Text.read_of_scans (scans_compact j plain)

theorem Text.read_pretty (limit : Nat) {j : Json} (plain : j.Plain) :
    Text.read limit j.pretty = ⟨Reading.ofJson limit j, true⟩ :=
  Text.read_of_scans (scans_prettyAt 0 j plain)

end TypedSql.Json
