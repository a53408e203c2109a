import TypedSql.Proofs.Document.Sound

namespace TypedSql

open Json (Reading)

namespace Members
variable {α β : Type}

def Placed (layouts : List (String × Layout)) (entries : Entries) (n : GatedName) : Prop :=
  ∃ l ∈ layouts, ∃ e ∈ entries, e.1.text? = some l.1 ∧ Position l.2 e.2.reading n

def Listed (layouts : List (String × Layout)) (items : List Source) (n : GatedName) : Prop :=
  ∃ p ∈ layouts.zip items, Position p.1.2 p.2.reading n

structure Sound (layouts : List (String × Layout)) (Q : (GatedName → Prop) → α → Prop)
    (m : Members α) : Prop where
  read : ∀ entries a, m.read entries = .ok a → Vouched (Placed layouts entries) Q a
  readList : ∀ items a rest, m.readList items = .ok (a, rest) →
    Vouched (Listed layouts items) Q a ∧ rest = items.drop layouts.length

section Lists
variable {layouts others : List (String × Layout)}

theorem placed_append {entries : Entries} {n : GatedName} :
    Placed (layouts ++ others) entries n ↔ Placed layouts entries n ∨ Placed others entries n := by
  simp only [Placed, List.mem_append, or_and_right, exists_or]

theorem listed_append {items : List Source} {n : GatedName} :
    Listed (layouts ++ others) items n ↔
      Listed layouts items n ∨ Listed others (items.drop layouts.length) n := by
  induction layouts generalizing items with
  | nil => simp [Listed]
  | cons l rest ih =>
    cases items with
    | nil => simp [Listed]
    | cons item items =>
      have more : Listed (rest ++ others) items n ↔ _ := ih
      simp only [Listed] at more
      simp only [Listed, List.cons_append, List.zip_cons_cons, List.mem_cons, exists_eq_or_imp, more,
        List.length_cons, List.drop_succ_cons, or_assoc]

end Lists

theorem read_of_seq {f : Members (α → β)} {m : Members α} {entries : Entries} {b : β}
    (success : (f <*> m).read entries = .ok b) :
    ∃ g a, f.read entries = .ok g ∧ m.read entries = .ok a ∧ g a = b := by
  cases made : f.read entries with
  | error e => cases given : m.read entries <;> simp [Seq.seq, made, given] at success
  | ok g =>
    cases given : m.read entries with
    | error e => simp [Seq.seq, made, given] at success
    | ok a => exact ⟨g, a, rfl, rfl, by simpa [Seq.seq, made, given] using success⟩

namespace Sound
variable {layouts others : List (String × Layout)} {Q : (GatedName → Prop) → α → Prop}
  {R : (GatedName → Prop) → β → Prop}

theorem pure {a : α} (asks : ∀ P, Q P a) : Sound [] Q (Pure.pure a : Members α) where
  read entries b success := by
    cases success
    exact .nowhere (by simp [Placed]) asks
  readList items b rest success := by
    cases success
    exact ⟨.nowhere (by simp [Listed]) asks, rfl⟩

theorem seq {f : Members (α → β)} {m : Members α}
    (first : f.Sound layouts fun P f => ∀ a, Q P a → R P (f a)) (second : m.Sound others Q) :
    (f <*> m).Sound (layouts ++ others) R where
  read entries b success := by
    obtain ⟨g, a, made, given, rfl⟩ := read_of_seq success
    refine (Vouched.seq (first.read _ _ made) (second.read _ _ given)).congr fun n => ?_
    exact placed_append.symm
  readList items b rest success := by
    simp only [Seq.seq, Except.bind_eq_ok] at success
    obtain ⟨⟨g, items'⟩, made, ⟨a, items''⟩, given, same⟩ := success
    cases same
    obtain ⟨vouched, left⟩ := first.readList _ _ _ made
    subst left
    obtain ⟨vouched', left'⟩ := second.readList _ _ _ given
    refine ⟨(Vouched.seq vouched vouched').congr fun n => listed_append.symm, ?_⟩
    rw [left', List.drop_drop, List.length_append]

theorem map {f : α → β} {m : Members α} (asks : ∀ P a, Q P a → R P (f a))
    (sound : m.Sound layouts Q) : (f <$> m).Sound layouts R :=
  .seq (.pure asks) sound

theorem of_eq {m : Members α} (sound : m.Sound layouts Q) (same : layouts = others) :
    m.Sound others Q := same ▸ sound

end Sound

section Lookups
variable {layout : Layout} {Q : (GatedName → Prop) → α → Prop} {decode : Decoder α} {key : String}

theorem mem_occurrences (key : String) (place : Nat) (entries : Entries) (value : Source) :
    value ∈ (occurrences key place entries).map Prod.snd ↔
      ∃ name, (name, value) ∈ entries ∧ name.text? = some key := by
  induction entries generalizing place with
  | nil => simp [occurrences]
  | cons e rest ih =>
    obtain ⟨name, other⟩ := e
    unfold occurrences
    by_cases named : name.text? = some key
    · simp [named, ih, or_and_right, exists_or, and_assoc]
    · simp [named, ih, or_and_right, exists_or, and_assoc]

theorem ok_of_lookup {absent : Except DecodeError α} {entries : Entries} {a : α}
    (success : (lookup key absent decode).read entries = .ok a) :
    ((∀ e ∈ entries, e.1.text? ≠ some key) ∧ absent = .ok a) ∨
      ∃ value, decode value = .ok a ∧
        (∃ name, (name, value) ∈ entries ∧ name.text? = some key) ∧
        ∀ e ∈ entries, e.1.text? = some key → e.2 = value := by
  simp only [lookup] at success
  have among := mem_occurrences key 0 entries
  split at success
  · rename_i none
    simp only [none, List.map_nil, List.not_mem_nil, false_iff, not_exists, not_and] at among
    refine .inl ⟨fun e member => among e.2 e.1 member, ?_⟩
    exact Except.mapError_eq_ok.mp success
  · rename_i place value more found
    split at success <;> cases success
    rename_i b made
    simp only [found, List.map_cons, List.map_nil, List.mem_singleton] at among
    exact .inr ⟨value, made, (among value).mp rfl, fun e member named =>
      (among e.2).mpr ⟨e.1, member, named⟩⟩

theorem Sound.lookup {absent : Except DecodeError α} (sound : decode.Sound layout Q)
    (missing : ∀ a, absent = .ok a → ∀ P, Q P a) :
    (lookup key absent decode).Sound [(key, layout)] Q where
  read entries a success := by
    rcases ok_of_lookup success with ⟨none, given⟩ | ⟨value, made, ⟨name, member, named⟩, only⟩
    · refine .nowhere ?_ (missing a given)
      rintro n ⟨l, inside, e, member, named, -⟩
      obtain rfl := List.mem_singleton.mp inside
      exact none e member named
    · refine (sound value a made).congr fun n => ⟨fun inner => ?_, ?_⟩
      · exact ⟨_, List.mem_singleton_self _, _, member, named, inner⟩
      · rintro ⟨l, inside, e, member, named, inner⟩
        obtain rfl := List.mem_singleton.mp inside
        rwa [only e member named] at inner
  readList items a rest success := by
    cases items with
    | nil =>
      obtain ⟨b, given, same⟩ := Except.map_eq_ok.mp (show Except.map _ absent = _ from success)
      cases same
      exact ⟨.nowhere (by simp [Listed]) (missing a given), rfl⟩
    | cons item items =>
      obtain ⟨b, made, same⟩ := Except.map_eq_ok.mp (show Except.map _ (decode item) = _ from success)
      cases same
      refine ⟨(sound item a made).congr fun n => ?_, rfl⟩
      simp [Listed]

theorem Sound.required (sound : decode.Sound layout Q) :
    (required key decode).Sound [(key, layout)] Q := .lookup sound nofun

theorem Sound.defaulted {default : α} (asks : ∀ P, Q P default) (sound : decode.Sound layout Q) :
    (defaulted key default decode).Sound [(key, layout)] Q :=
  .lookup sound fun a given => by cases given; exact asks

theorem Sound.optional (sound : decode.Sound layout Q) :
    (optional key decode).Sound [(key, layout)] fun P o => ∀ a ∈ o, Q P a := by
  refine .lookup ?_ fun a given => by cases given; simp
  rintro ⟨reading, held⟩ o success
  have given (success : (decode ⟨reading, held⟩).map some = .ok o) :
      Vouched (Position layout reading) (fun P o => ∀ a ∈ o, Q P a) o := by
    obtain ⟨a, made, rfl⟩ := Except.map_eq_ok.mp success
    exact (sound _ a made).map (f := some) fun P a asks => by simpa using asks
  cases reading with
  | null =>
    cases success
    exact .nowhere (fun _ => Position.not_null) (by simp)
  | _ => exact given success

end Lookups
end Members

section Objects
variable {α : Type} {layouts : List (String × Layout)} {Q : (GatedName → Prop) → α → Prop}
  {m : Members α}

theorem Members.read_of_passingOthers {passes : Reading → Bool} {entries : Entries} {a : α}
    (success : (m.passingOthers passes).read entries = .ok a) : m.read entries = .ok a := by
  obtain ⟨g, _, first, -, rfl⟩ := read_of_seq (f := Function.const Unit <$> m) success
  obtain ⟨h, b, given, made, rfl⟩ := read_of_seq (f := Pure.pure (Function.const Unit)) first
  cases given
  exact made

theorem Decoder.vouched_of_members {passes : Reading → Bool} {held : Bool}
    {entries : List (Reading × Reading)} {a : α} (sound : m.Sound layouts Q)
    (success : Decoder.members passes m held entries = .ok a) :
    Vouched (Position (.object layouts) (.object entries)) Q a := by
  have read := Members.read_of_passingOthers (Except.mapError_eq_ok.mp success)
  refine (sound.read _ _ read).congr fun n => ⟨?_, fun position => ?_⟩
  · rintro ⟨⟨name, layout⟩, asked, e, member, named, inner⟩
    obtain ⟨entry, inside, rfl⟩ := List.mem_map.mp member
    exact .member asked inside named inner
  · cases position with
    | member asked member named inner =>
      exact ⟨_, asked, _, List.mem_map_of_mem member, named, inner⟩

theorem Decoder.Sound.object (sound : m.Sound layouts Q) :
    (Decoder.object m).Sound (.object layouts) Q := by
  rintro ⟨reading, held⟩ a success
  cases reading with
  | object entries => exact Decoder.vouched_of_members sound success
  | list items =>
    simp only [Decoder.object, Except.bind_eq_ok] at success
    obtain ⟨⟨b, rest⟩, read, success⟩ := success
    split at success <;> cases success
    obtain ⟨vouched, -⟩ := sound.readList _ _ _ read
    refine vouched.congr fun n => ⟨?_, fun position => ?_⟩
    · rintro ⟨p, listed, inner⟩
      rw [List.zip_map_right, List.mem_map] at listed
      obtain ⟨⟨⟨name, layout⟩, r⟩, listed, rfl⟩ := listed
      exact .value listed inner
    · cases position with
      | @value _ _ name layout r _ listed inner =>
        refine ⟨((name, layout), ⟨r, held⟩), ?_, inner⟩
        rw [List.zip_map_right]
        exact List.mem_map.mpr ⟨_, listed, rfl⟩
  | _ => cases success

end Objects
end TypedSql
