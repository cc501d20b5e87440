import Mathlib.Data.List.Nodup
import SchemaHeaders.Toml.Document

/-!
# Keys of a TOML table

No line of a TOML text gives the table at the root a key that it has already : a new key is added
only where a look-up finds none, and whatever else a line does to the table leaves its keys as they
are (`Entries.distinct_atPath`). So no step of the reader makes two entries of one key
(`State.step_keeps`), and the table of a whole text has distinct keys (`distinct_entriesOf`).
-/

namespace SchemaHeaders.Toml

/-! ## Entries -/

namespace Entries

/-- No two entries have one key. -/
def Distinct (entries : Entries) : Prop := (entries.map (·.1)).Nodup

variable {entries entries' : Entries} {key : String} {path : List String} {kind : TableKind}

theorem map_fst_replace (key : String) (value : Value) (entries : Entries) :
    (replace key value entries).map (·.1) = entries.map (·.1) := by
  induction entries with
  | nil => rfl
  | cons entry entries ih =>
    rw [replace]
    split_ifs
    · rfl
    · rw [List.map_cons, List.map_cons, ih]

theorem Distinct.replace (h : entries.Distinct) (key : String) (value : Value) :
    (entries.replace key value).Distinct := by
  rw [Distinct, map_fst_replace]
  exact h

/-- A key that is not there can be added. -/
theorem Distinct.append (h : entries.Distinct) (hkey : entries.lookup key = none) (value : Value) :
    (entries ++ [(key, value)] : Entries).Distinct := by
  rw [Distinct, List.map_append, List.nodup_append]
  refine ⟨h, List.nodup_singleton key, ?_⟩
  intro name hname other hother
  obtain ⟨entry, hentry, rfl⟩ := List.mem_map.mp hname
  rw [List.mem_singleton.mp hother]
  have hne := List.lookup_eq_none_iff.mp hkey entry hentry
  exact Ne.symm (by simpa using hne)

/-- Whatever is done to a table that a path leads to, the table that the path begins at keeps its keys
apart, if that is so of what is done. -/
theorem distinct_atPath {dotted : Bool} {act : TableKind → Entries → Option Entries}
    (hact : ∀ kind es es', Distinct es → act kind es = some es' → Distinct es')
    (h : entries.Distinct) (hpath : atPath dotted act path kind entries = some entries') :
    entries'.Distinct := by
  cases path with
  | nil => exact hact kind entries entries' h hpath
  | cons key path =>
    rw [atPath] at hpath
    cases hlookup : entries.lookup key with
    | none =>
      simp only [hlookup, Option.map_eq_map, Option.map_eq_some_iff] at hpath
      obtain ⟨inner, -, rfl⟩ := hpath
      exact h.append hlookup _
    | some value =>
      rw [hlookup] at hpath
      split at hpath
      · rename_i hnone
        cases hnone
      · split_ifs at hpath
        obtain ⟨inner, -, rfl⟩ := Option.map_eq_some_iff.mp hpath
        exact h.replace key _
      · split at hpath
        · obtain ⟨inner, -, rfl⟩ := Option.map_eq_some_iff.mp hpath
          exact h.replace key _
        · cases hpath
      · cases hpath

theorem distinct_insert {value : Value} (h : entries.Distinct)
    (hinsert : insert path value kind entries = some entries') : entries'.Distinct := by
  unfold insert at hinsert
  split at hinsert
  · cases hinsert
  · refine distinct_atPath (fun kind es es' hes hadd => ?_) h hinsert
    unfold add at hadd
    split_ifs at hadd
    split at hadd
    · cases hadd
    · rename_i hlookup
      cases hadd
      exact hes.append hlookup _

theorem distinct_putHeader {first : Value} {again? : Value → Option Value} (h : entries.Distinct)
    (hput : putHeader first again? key entries = some entries') : entries'.Distinct := by
  unfold putHeader at hput
  split at hput
  · rename_i hlookup
    cases hput
    exact h.append hlookup first
  · obtain ⟨value, -, rfl⟩ := Option.map_eq_some_iff.mp hput
    exact h.replace key value

theorem distinct_openHeader {first : Value} {again? : Value → Option Value} (h : entries.Distinct)
    (hopen : openHeader first again? path entries = some entries') : entries'.Distinct := by
  unfold openHeader at hopen
  split at hopen
  · cases hopen
  · exact distinct_atPath (fun _ _ _ => distinct_putHeader) h hopen

end Entries

/-! ## Steps of the reader -/

namespace State

/-- A next state has a root with distinct keys, if the state has. -/
def Keeps (s : State) (next : Option State) : Prop :=
  ∀ s', next = some s' → s.root.Distinct → s'.root.Distinct

variable {s : State} {path : List String} {stack : List Frame}

theorem keeps_none (s : State) : s.Keeps none := fun _ h => by cases h

theorem keeps_place (s : State) (place : Place) : s.Keeps (some { s with place }) := by
  rintro _ ⟨⟩ h
  exact h

theorem enter_keeps (s : State) (path : List String) (value : Value) :
    s.Keeps (s.enter path value) := by
  intro s' h hroot
  obtain ⟨root, hpath, rfl⟩ := Option.map_eq_some_iff.mp h
  exact Entries.distinct_atPath (fun _ _ _ => Entries.distinct_insert) hroot hpath

theorem supply_keeps (s : State) (path : List String) (value : Value) (stack : List Frame) :
    s.Keeps (s.supply path value stack) := by
  match stack with
  | [] => exact s.enter_keeps path value
  | .list _ :: _ => exact s.keeps_place _
  | .table _ _ :: _ =>
    intro s' h hroot
    obtain ⟨entries, -, rfl⟩ := Option.map_eq_some_iff.mp h
    exact hroot

theorem openFrame_keeps (s : State) (frame : Frame) (stack : List Frame)
    (place : List Frame → Place) : s.Keeps (s.openFrame frame stack place) := by
  unfold openFrame
  split_ifs
  · exact s.keeps_place _
  · exact s.keeps_none

theorem beginValue_keeps (s : State) (path : List String) (stack : List Frame) (t : Token) :
    s.Keeps (s.beginValue path stack t) := by
  unfold beginValue
  split
  · exact s.supply_keeps _ _ _
  · intro s' h
    obtain ⟨value, -, h⟩ := Option.bind_eq_some_iff.mp h
    exact s.supply_keeps _ _ _ s' h
  · exact s.openFrame_keeps _ _ _
  · exact s.openFrame_keeps _ _ _
  · exact s.keeps_none

theorem close_keeps (s : State) (path : List String) (t : Token) (stack : List Frame) :
    s.Keeps (s.close path t stack) := by
  unfold close
  split
  · split
    · exact s.supply_keeps _ _ _
    · exact s.keeps_none
  · split
    · exact s.supply_keeps _ _ _
    · exact s.keeps_none
  · exact s.keeps_none

theorem stepKey_keeps {s : State} {key : KeyDraft} {place : KeyDraft → Place} {ends : Token → Bool}
    {done : List String → Option State} {t : Token} (hdone : ∀ path, s.Keeps (done path)) :
    s.Keeps (s.stepKey key place ends done t) := by
  unfold stepKey
  split_ifs
  · intro s' h
    obtain ⟨path, -, h⟩ := Option.bind_eq_some_iff.mp h
    exact hdone path s' h
  · intro s' h hroot
    obtain ⟨key, -, rfl⟩ := Option.map_eq_some_iff.mp h
    exact hroot

theorem enterHeader_keeps {path : List String} {root : Option Entries}
    (hopen : ∀ entries, root = some entries → s.root.Distinct → entries.Distinct) :
    s.Keeps (enterHeader path root) := by
  intro s' h hroot
  obtain ⟨entries, hentries, rfl⟩ := Option.map_eq_some_iff.mp h
  exact hopen entries hentries hroot

/-- No token gives the root an entry of a key that it has. -/
theorem step_keeps (s : State) (t : Token) : s.Keeps (s.step t) := by
  unfold step
  cases s.place with
  | lineStart =>
    dsimp only
    split
    · exact s.keeps_place s.place
    · exact s.keeps_place _
    · exact stepKey_keeps fun _ => s.keeps_none
  | lineEnd =>
    dsimp only
    split_ifs
    · exact s.keeps_place _
    · exact s.keeps_none
  | header ofTables key =>
    dsimp only
    split_ifs
    · exact s.keeps_place _
    · exact stepKey_keeps fun _ => s.keeps_place _
    · exact stepKey_keeps fun _ =>
        enterHeader_keeps fun _ hopen h => Entries.distinct_openHeader h hopen
  | headerEnd path =>
    dsimp only
    split_ifs
    · exact enterHeader_keeps fun _ hopen h => Entries.distinct_openHeader h hopen
    · exact s.keeps_none
  | key key => exact stepKey_keeps fun _ => s.keeps_place _
  | value path stack => exact s.beginValue_keeps path stack t
  | element path stack =>
    dsimp only
    split
    · exact s.keeps_place s.place
    · exact s.close_keeps _ _ _
    · exact s.beginValue_keeps _ _ _
  | elementEnd path stack =>
    dsimp only
    split
    · exact s.keeps_place s.place
    · exact s.keeps_place _
    · exact s.close_keeps _ _ _
  | member path stack =>
    dsimp only
    split
    · exact s.keeps_place s.place
    · exact s.close_keeps _ _ _
    · exact stepKey_keeps fun _ => s.keeps_none
  | memberKey path stack key =>
    refine stepKey_keeps fun _ => ?_
    split
    · exact s.keeps_place _
    · exact s.keeps_none
  | memberEnd path stack =>
    dsimp only
    split
    · exact s.keeps_place s.place
    · exact s.keeps_place _
    · exact s.close_keeps _ _ _

theorem run_keeps (s : State) (tokens : List Token) : s.Keeps (s.run tokens) := by
  induction tokens generalizing s with
  | nil => exact s.keeps_place s.place
  | cons t tokens ih =>
    intro s' h hroot
    obtain ⟨next, hstep, hrun⟩ := Option.bind_eq_some_iff.mp h
    exact ih next s' hrun (s.step_keeps t next hstep hroot)

end State

/-- The table at the root of a TOML text has no two entries of one key. -/
theorem distinct_entriesOf {text : String} {entries : Entries} (h : entriesOf text = some entries) :
    entries.Distinct := by
  simp only [entriesOf, bind, Option.bind_eq_some_iff] at h
  obtain ⟨tokens, -, s, hrun, hfinish⟩ := h
  have hroot := State.run_keeps {} tokens s hrun List.nodup_nil
  unfold State.finish at hfinish
  split at hfinish
  · cases hfinish
    exact hroot
  · cases hfinish
    exact hroot
  · cases hfinish

end SchemaHeaders.Toml
