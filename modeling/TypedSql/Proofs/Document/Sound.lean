import TypedSql.Document.Decoder
import TypedSql.Proofs.Document.Layout
import TypedSql.Proofs.Except
import TypedSql.Proofs.NameMap

namespace TypedSql

open Json (Reading)

/-- That a value, by what is asked of it, has its names from places as said, and all names at such
    places pass their gates. -/
def Vouched {α : Type} (place : GatedName → Prop) (Q : (GatedName → Prop) → α → Prop) (a : α) :
    Prop :=
  (∀ P, (∀ n, place n → P n) → Q P a) ∧ ∀ n, place n → n.1.Admits n.2

/-- That a decoder takes gated names from where the layout has them, and lets none of them pass
    unseen. -/
def Decoder.Sound {α : Type} (layout : Layout) (Q : (GatedName → Prop) → α → Prop)
    (decode : Decoder α) : Prop :=
  ∀ s a, decode s = .ok a → Vouched (Position layout s.reading) Q a

section Vouched
variable {α β : Type} {place place' : GatedName → Prop} {Q : (GatedName → Prop) → α → Prop}
  {R : (GatedName → Prop) → β → Prop} {a : α}

theorem Vouched.congr (vouched : Vouched place Q a) (same : ∀ n, place n ↔ place' n) :
    Vouched place' Q a :=
  ⟨fun P holds => vouched.1 P fun n at_ => holds n ((same n).mp at_),
    fun n at_ => vouched.2 n ((same n).mpr at_)⟩

theorem Vouched.map {f : α → β} (vouched : Vouched place Q a) (asks : ∀ P a, Q P a → R P (f a)) :
    Vouched place R (f a) :=
  ⟨fun P holds => asks P a (vouched.1 P holds), vouched.2⟩

theorem Vouched.seq {f : α → β} (first : Vouched place (fun P f => ∀ a, Q P a → R P (f a)) f)
    (second : Vouched place' Q a) : Vouched (fun n => place n ∨ place' n) R (f a) := by
  refine ⟨fun P holds => ?_, fun n at_ => at_.elim (first.2 n) (second.2 n)⟩
  have argument : Q P a := second.1 P fun n at_ => holds n (.inr at_)
  exact first.1 P (fun n at_ => holds n (.inl at_)) a argument

theorem Vouched.nowhere (none : ∀ n, ¬place n) (asks : ∀ P, Q P a) : Vouched place Q a :=
  ⟨fun P _ => asks P, fun n at_ => absurd at_ (none n)⟩

theorem Vouched.forall {items : List (GatedName → Prop)} {as : List α}
    (each : List.Forall₂ (fun place a => Vouched place Q a) items as) :
    Vouched (fun n => ∃ place ∈ items, place n) (fun P as => ∀ a ∈ as, Q P a) as := by
  induction each with
  | nil => exact .nowhere (by simp) (by simp)
  | cons first _ ih =>
    refine ⟨fun P holds => List.forall_mem_cons.mpr ⟨?_, ?_⟩, fun n => ?_⟩
    · exact first.1 P fun n at_ => holds n ⟨_, List.mem_cons_self, at_⟩
    · exact ih.1 P fun n ⟨place, member, at_⟩ => holds n ⟨place, List.mem_cons_of_mem _ member, at_⟩
    · rintro ⟨place, member, at_⟩
      rcases List.mem_cons.mp member with rfl | member
      · exact first.2 n at_
      · exact ih.2 n ⟨place, member, at_⟩

end Vouched

namespace Decoder.Sound
variable {α β : Type} {layout : Layout} {Q : (GatedName → Prop) → α → Prop}
  {R : (GatedName → Prop) → β → Prop} {decode : Decoder α}

theorem plain (decode : Decoder α) : decode.Sound .plain fun _ _ => True :=
  fun _ _ _ => .nowhere (fun _ => Position.not_plain) fun _ => trivial

theorem map {f : α → β} (sound : decode.Sound layout Q) (asks : ∀ P a, Q P a → R P (f a)) :
    Decoder.Sound layout R fun s => (decode s).map f := by
  intro s b success
  obtain ⟨a, read, rfl⟩ := Except.map_eq_ok.mp success
  exact (sound s a read).map asks

theorem tree {part : TreePart} (sound : decode.Sound part.layout Q) :
    decode.Sound (.tree part) Q := by
  intro s a success
  refine (sound s a success).congr fun n => ⟨.tree, fun position => ?_⟩
  cases position with
  | tree inner => exact inner

theorem ok_of_string {s : Source} {text : String} (read : Decoder.string s = .ok text) :
    s.reading = .text text := by
  obtain ⟨reading, held⟩ := s
  cases reading with
  | text => cases read; rfl
  | _ => cases read

theorem gate {g : Gate} {names : α → List GatedName}
    (admits : ∀ s a, decode s = .ok a →
      ∃ name, s.reading = .text name ∧ names a = [(g, name)] ∧ g.Admits name) :
    decode.Sound (.gated g) (Among names) := by
  intro s a success
  obtain ⟨name, read, named, admitted⟩ := admits s a success
  rw [read]
  refine ⟨fun P holds n member => ?_, fun n position => ?_⟩
  · rw [named, List.mem_singleton] at member
    exact member ▸ holds _ .here
  · cases position
    exact admitted

theorem list (sound : decode.Sound layout Q) :
    (Decoder.list decode).Sound (.list layout) fun P as => ∀ a ∈ as, Q P a := by
  rintro ⟨reading, held⟩ as success
  cases reading with
  | list items =>
    have read : items.mapM (fun item => decode ⟨item, held⟩) = .ok as := success
    have each := Except.mapM_eq_ok.mp read
    have vouched : List.Forall₂ (fun place a => Vouched place Q a)
        (items.map fun item => Position layout item) as := by
      rw [List.forall₂_map_left_iff]
      exact each.imp fun item a made => sound _ a made
    refine (Vouched.forall vouched).congr fun n => ?_
    constructor
    · rintro ⟨_, member, at_⟩
      obtain ⟨item, inside, rfl⟩ := List.mem_map.mp member
      exact .item inside at_
    · intro position
      cases position with
      | item member inner => exact ⟨_, List.mem_map_of_mem member, inner⟩
  | _ => cases success

theorem nameMap (sound : decode.Sound layout Q) :
    (Decoder.nameMap decode).Sound (.map layout) fun P m => ∀ a ∈ m.values, Q P a := by
  rintro ⟨reading, held⟩ m success
  cases reading with
  | object members =>
    obtain ⟨entries, read, rfl⟩ := Except.map_eq_ok.mp (show Except.map _ _ = .ok m from success)
    have each := Except.mapM_eq_ok.mp read
    have vouched : List.Forall₂ (fun place e => Vouched place (fun P e => Q P e.2) e)
        (members.map fun member => Position layout member.2) entries := by
      rw [List.forall₂_map_left_iff]
      refine each.imp fun member e made => ?_
      unfold Decoder.entry at made
      split at made
      · cases made
      · obtain ⟨a, decoded, rfl⟩ := Except.map_eq_ok.mp made
        have entry := sound _ a decoded
        exact entry.map (f := fun a => (_, a)) fun P a asks => asks
    have listed := Vouched.forall vouched
    have found : Vouched (fun n => ∃ place ∈ members.map fun member => Position layout member.2,
        place n) (fun P m => ∀ a ∈ m.values, Q P a) (NameMap.ofList entries) := by
      refine listed.map (f := NameMap.ofList) fun P es all a member => ?_
      obtain ⟨e, inside, rfl⟩ := List.mem_map.mp member
      exact all e (NameMap.mem_ofList inside)
    refine found.congr fun n => ?_
    constructor
    · rintro ⟨_, member, at_⟩
      obtain ⟨entry, inside, rfl⟩ := List.mem_map.mp member
      exact .entry inside at_
    · intro position
      cases position with
      | entry member inner => exact ⟨_, List.mem_map_of_mem member, inner⟩
  | _ => cases success

section Choices
variable {variants : List (Variant α)} {layouts : List (String × Layout)} {tag : String}

def Choices (layouts : List (String × Layout)) (Q : (GatedName → Prop) → α → Prop)
    (variants : List (Variant α)) : Prop :=
  ∀ tag v, (variants.find? fun v => v.tag == tag) = some v →
    (∀ a, v.alone = .ok a → ∀ P, Q P a) ∧
      ∀ s a, v.withContent s = .ok a →
        Vouched (fun n => ∃ layout, layouts.lookup tag = some layout ∧
          Position layout s.reading n) Q a

theorem Choices.nil : Choices [] Q ([] : List (Variant α)) := nofun

theorem Choices.carrying (sound : decode.Sound layout Q) (others : Choices layouts Q variants) :
    Choices ((tag, layout) :: layouts) Q (.carrying tag decode :: variants) := by
  intro other v found
  by_cases same : tag = other
  · subst same
    rw [List.find?_cons_of_pos (by simp [Variant.tag]), Option.some.injEq] at found
    subst found
    refine ⟨nofun, fun s a read => (sound s a read).congr fun n => ?_⟩
    simp only [List.lookup_cons_self, Option.some.injEq, exists_eq_left']
  · have different : (other == tag) = false := beq_eq_false_iff_ne.mpr (Ne.symm same)
    rw [List.find?_cons_of_neg (by simpa [Variant.tag] using same)] at found
    simpa [List.lookup_cons, different] using others other v found

theorem ok_of_plain {a b : α} {s : Source}
    (read : (Variant.plain tag a).withContent s = .ok b) : b = a := by
  obtain ⟨reading, held⟩ := s
  cases reading with
  | null => exact (Except.ok.inj read).symm
  | object entries =>
    cases entries with
    | nil =>
      cases held with
      | true => exact (Except.ok.inj read).symm
      | false => cases read
    | cons => cases read
  | _ => cases read

theorem Choices.plain {a : α} (asks : ∀ P, Q P a) (bare : layouts.lookup tag = none)
    (others : Choices layouts Q variants) : Choices layouts Q (.plain tag a :: variants) := by
  intro other v found
  by_cases same : tag = other
  · subst same
    rw [List.find?_cons_of_pos (by simp [Variant.tag]), Option.some.injEq] at found
    subst found
    refine ⟨fun b alone => ?_, fun s b read => .nowhere (by simp [bare]) ?_⟩
    · obtain rfl : a = b := Except.ok.inj alone
      exact asks
    · exact ok_of_plain read ▸ asks
  · rw [List.find?_cons_of_neg (by simpa [Variant.tag] using same)] at found
    exact others other v found

theorem ok_of_choice {key content : Reading} {more : List (Reading × Reading)} {held : Bool} {a : α}
    (success : Decoder.choice variants ⟨.object ((key, content) :: more), held⟩ = .ok a) :
    more = [] ∧ ∃ tag v, key = .text tag ∧ (variants.find? fun v => v.tag == tag) = some v ∧
      v.withContent ⟨content, held⟩ = .ok a := by
  simp only [Decoder.choice] at success
  split at success
  · cases success
  · simp only [Except.bind_eq_ok] at success
    obtain ⟨tag, read, success⟩ := success
    split at success
    · cases success
    · rename_i v found
      simp only [Except.bind_eq_ok] at success
      obtain ⟨b, made, success⟩ := success
      split at success
      · rename_i alone
        cases success
        exact ⟨by simpa using alone, tag, v, ok_of_string read, found, made⟩
      · cases success

theorem choice (choices : Choices layouts Q variants) :
    (Decoder.choice variants).Sound (.choice layouts) Q := by
  rintro ⟨reading, held⟩ a success
  cases reading with
  | text tag =>
    simp only [Decoder.choice] at success
    split at success
    · rename_i v found
      exact .nowhere (fun _ position => by cases position) ((choices _ v found).1 a success)
    · cases success
  | object entries =>
    cases entries with
    | nil => cases success
    | cons entry more =>
      obtain ⟨key, content⟩ := entry
      obtain ⟨rfl, tag, v, rfl, found, made⟩ := ok_of_choice success
      refine ((choices tag v found).2 _ a made).congr fun n => ⟨?_, fun position => ?_⟩
      · rintro ⟨layout, known, inner⟩
        exact .content known List.mem_cons_self rfl inner
      · cases position with
        | content known member tagged inner =>
          cases List.mem_singleton.mp member
          obtain rfl : tag = _ := Option.some.inj tagged
          exact ⟨_, known, inner⟩
  | _ => cases success

end Choices

end Decoder.Sound

end TypedSql
