import TypedSql.Proofs.Document.Restored

namespace TypedSql

open Json (Reading)

namespace Members
variable {α β : Type} {n : Nat}

def sources (held : Bool) (entries : List (String × Json)) : Entries :=
  entries.map fun e => (.text e.1, ⟨e.2.reading, held⟩)

theorem sources_cons (held : Bool) (e : String × Json) (rest : List (String × Json)) :
    sources held (e :: rest) = (.text e.1, ⟨e.2.reading, held⟩) :: sources held rest := rfl

def under (names : List String) (entries : List (String × Json)) : List (String × Json) :=
  entries.filter fun e => names.contains e.1

section Under
variable {names : List String} {entries : List (String × Json)}

theorem under_append (others : List (String × Json)) :
    under names (entries ++ others) = under names entries ++ under names others :=
  List.filter_append ..

theorem under_of_subset {all : List String} {asked : List (String × Json)} (inside : names ⊆ all)
    (found : under all entries = asked) : under names entries = under names asked := by
  rw [← found, under, under, under, List.filter_filter]
  refine List.filter_congr fun e _ => ?_
  by_cases known : e.1 ∈ names
  · simp [known, inside known]
  · simp [known]

theorem under_known (known : ∀ e ∈ entries, e.1 ∈ names) : under names entries = entries :=
  List.filter_eq_self.mpr fun e member => by simpa using known e member

theorem under_strange (strange : ∀ e ∈ entries, e.1 ∉ names) : under names entries = [] :=
  List.filter_eq_nil_iff.mpr fun e member => by simpa using strange e member

end Under

theorem read_seq {f : Members (α → β)} {m : Members α} {entries : Entries} {g : α → β} {a : α}
    (first : f.read entries = .ok g) (second : m.read entries = .ok a) :
    (f <*> m).read entries = .ok (g a) := by
  simp [Seq.seq, first, second]

def Restores (n : Nat) (m : Members α) (written : List (String × Json)) (a : α) : Prop :=
  m.names.Nodup → (∀ e ∈ written, e.2.depth < n) →
    (∀ e ∈ written, e.1 ∈ m.names ∧ e.2.Plain) ∧
    ∀ held entries, under m.names entries = written → m.read (sources held entries) = .ok a

namespace Restores

theorem of_eq {m : Members α} {written others : List (String × Json)} {a : α}
    (restores : m.Restores n written a) (same : written = others) : m.Restores n others a :=
  same ▸ restores

theorem pure {a : α} : Restores n (Pure.pure a) [] a :=
  fun _ _ => ⟨nofun, fun _ _ _ => rfl⟩

theorem seq {f : Members (α → β)} {m : Members α} {written rest : List (String × Json)} {g : α → β}
    {a : α} (first : f.Restores n written g) (second : m.Restores n rest a) :
    (f <*> m).Restores n (written ++ rest) (g a) := by
  intro distinct shallow
  obtain ⟨ours, theirs, apart⟩ := List.nodup_append.mp (show (f.names ++ m.names).Nodup from distinct)
  obtain ⟨shallow, shallow'⟩ := List.forall_mem_append.mp shallow
  obtain ⟨known, read⟩ := first ours shallow
  obtain ⟨known', read'⟩ := second theirs shallow'
  refine ⟨List.forall_mem_append.mpr ⟨fun e member => ?_, fun e member => ?_⟩, ?_⟩
  · exact ⟨List.mem_append_left _ (known e member).1, (known e member).2⟩
  · exact ⟨List.mem_append_right _ (known' e member).1, (known' e member).2⟩
  · intro held entries asked
    have asked : under (f.names ++ m.names) entries = written ++ rest := asked
    have mine : under f.names entries = written := by
      rw [under_of_subset (List.subset_append_left _ _) asked, under_append,
        under_known fun e member => (known e member).1,
        under_strange fun e member ours => apart _ ours _ (known' e member).1 rfl, List.append_nil]
    have others : under m.names entries = rest := by
      rw [under_of_subset (List.subset_append_right _ _) asked, under_append,
        under_known fun e member => (known' e member).1,
        under_strange fun e member theirs => apart _ (known e member).1 _ theirs rfl,
        List.nil_append]
    exact read_seq (read held entries mine) (read' held entries others)

theorem map {f : α → β} {m : Members α} {written : List (String × Json)} {a : α}
    (restores : m.Restores n written a) : (f <$> m).Restores n written (f a) :=
  .seq .pure restores

section Lookups
variable {key : String} {decode : Decoder α}

theorem map_occurrences (key : String) (held : Bool) (place : Nat) (entries : List (String × Json)) :
    (occurrences key place (sources held entries)).map Prod.snd =
      (under [key] entries).map fun e => ⟨e.2.reading, held⟩ := by
  induction entries generalizing place with
  | nil => rfl
  | cons e rest ih =>
    have tail := ih (place + 1)
    rw [sources_cons, occurrences, under]
    by_cases named : e.1 = key
    · simpa [Reading.text?, under, named] using tail
    · simpa [Reading.text?, under, named] using tail

theorem lookup {absent : Except DecodeError α} {j : Option Json} {a : α}
    (missing : j = none → absent = .ok a)
    (given : ∀ value ∈ j, value.depth < n →
      value.Plain ∧ ∀ held, decode ⟨value.reading, held⟩ = .ok a) :
    (Members.lookup key absent decode).Restores n (Json.member? key j) a := by
  intro _ shallow
  cases j with
  | none =>
    refine ⟨nofun, fun held entries asked => ?_⟩
    have asked : under [key] entries = [] := asked
    have listed := map_occurrences key held 0 entries
    rw [asked, List.map_nil, List.map_eq_nil_iff] at listed
    simp only [Members.lookup, listed, missing rfl]
    rfl
  | some value =>
    obtain ⟨plain, read⟩ := given value rfl (shallow (key, value) (List.mem_singleton_self _))
    refine ⟨fun e member => ?_, fun held entries asked => ?_⟩
    · obtain rfl := List.mem_singleton.mp member
      exact ⟨List.mem_singleton_self _, plain⟩
    · have asked : under [key] entries = [(key, value)] := asked
      have listed := map_occurrences key held 0 entries
      rw [asked, List.map_singleton, List.map_eq_singleton_iff] at listed
      obtain ⟨⟨place, source⟩, only, rfl⟩ := listed
      simp only [Members.lookup, only, read held]

theorem present {absent : Except DecodeError α} {j : Json} {a : α}
    (restores : decode.Restores n j a) :
    (Members.lookup key absent decode).Restores n [(key, j)] a := by
  refine lookup (j := some j) nofun ?_
  intro value same shallow
  cases same
  exact ⟨(restores shallow).plain, (restores shallow).read⟩

theorem required {j : Json} {a : α} (restores : decode.Restores n j a) :
    (Members.required key decode).Restores n [(key, j)] a := present restores

theorem defaulted {default : α} {j : Json} {a : α} (restores : decode.Restores n j a) :
    (Members.defaulted key default decode).Restores n [(key, j)] a := present restores

theorem read_some {j : Json} {a : α} (restored : Restored decode j a) (held : Bool) :
    (match (⟨j.reading, held⟩ : Source) with
      | ⟨.null, _⟩ => .ok none
      | s => (decode s).map some) = Except.ok (some a) := by
  have read := restored.read held
  cases j with
  | null => exact absurd rfl restored.present
  | _ =>
    simp only [Json.reading] at read ⊢
    rw [read]
    rfl

theorem optional {write : α → Json} {o : Option α}
    (restores : ∀ a ∈ o, decode.Restores n (write a) a) :
    (Members.optional key decode).Restores n (Json.member? key (o.map write)) o := by
  refine lookup ?_ ?_
  · intro none
    rw [Option.map_eq_none_iff.mp none]
  · intro value same shallow
    obtain ⟨a, rfl, rfl⟩ := Option.map_eq_some_iff.mp same
    have restored := restores a rfl shallow
    exact ⟨restored.plain, read_some restored⟩

theorem nullable {write : α → Json} {o : Option α}
    (restores : ∀ a ∈ o, decode.Restores n (write a) a) :
    (Members.optional key decode).Restores n [(key, .ofOption write o)] o := by
  refine lookup (j := some (.ofOption write o)) nofun ?_
  intro value same shallow
  cases same
  cases o with
  | none => exact ⟨trivial, fun _ => rfl⟩
  | some a =>
    have restored := restores a rfl shallow
    exact ⟨restored.plain, read_some restored⟩

end Lookups

section Objects
variable {m : Members α} {written : List (String × Json)} {a : α}

theorem stranger?_eq_none {names : List String} {passes : Reading → Bool} {held : Bool}
    {entries : List (String × Json)} (passing : ∀ e ∈ entries, passes e.2.reading = true)
    (place : Nat) : stranger? names passes place (sources held entries) = none := by
  induction entries generalizing place with
  | nil => rfl
  | cons e rest ih =>
    obtain ⟨first, others⟩ := List.forall_mem_cons.mp passing
    rw [sources_cons, stranger?]
    simpa [Reading.text?, first] using ih others (place + 1)

theorem read_members (restores : m.Restores n written a) (distinct : m.names.Nodup)
    (shallow : ∀ e ∈ written, e.2.depth < n) {entries : List (String × Json)}
    (asked : under m.names entries = written) {passes : Reading → Bool}
    (passing : ∀ e ∈ entries, passes e.2.reading = true) (held : Bool) :
    Decoder.members passes m held (Json.readingMembers entries) = .ok a := by
  have read := (restores distinct shallow).2 held entries asked
  have listed : (Json.readingMembers entries).map (fun e => (e.1, (⟨e.2, held⟩ : Source))) =
      sources held entries := by
    rw [Json.readingMembers_eq, List.map_map]
    rfl
  have others : stranger? m.names passes 0 (sources held entries) = none :=
    stranger?_eq_none passing 0
  have passed : (m.passingOthers passes).read (sources held entries) = .ok a := by
    refine read_seq (a := ()) (read_seq (f := Pure.pure (Function.const Unit)) rfl read) ?_
    simp only [others]
  rw [Decoder.members, listed, passed]
  rfl

theorem object (restores : m.Restores n written a) (distinct : m.names.Nodup) :
    (Decoder.object m).Restores (n + 1) (.obj written) a := by
  intro shallow
  have below := Json.depth_lt_of_obj shallow
  have known := (restores distinct below).1
  refine ⟨?_, nofun, fun held => ?_⟩
  · rw [Json.Plain, Json.plainMembers_iff]
    exact fun e member => (known e member).2
  · have all : under m.names written = written := under_known fun e member => (known e member).1
    exact read_members restores distinct below all (fun e _ => Json.isSound_reading e.2) held

end Objects
end Restores
end Members
end TypedSql
