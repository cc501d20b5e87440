import SchemaHeaders.Config
import SchemaHeaders.Proofs.Records
import SchemaHeaders.Proofs.TomlTables
import SchemaHeaders.Proofs.TomlText

/-!
# Settings in a text

`Config.Sets text settings` : the text is TOML, every key in it is a setting, and every value is a
text. It then makes the configuration of its settings, whatever their order and however they are
spelled (`Config.ofToml_of_sets`). From every other text no configuration is read
(`Config.ofToml_of_unusable`, `Config.unusable_or_sets`), so that no broken line goes unnoticed.

Any settings with distinct keys can be written : `Config.sets_settingsText`.
-/

namespace SchemaHeaders

open Document Toml

namespace Config

variable {doc : Document} {text : String} {settings : List (String × String)} {d d' : Draft}

/-- The keys of the settings. -/
def keys : List String := ["schema", "output_root", "enum_dir", "struct_dir", "backend"]

/-- A text gives a text to each of some settings, and has nothing else in it. -/
structure Sets (text : String) (settings : List (String × String)) : Prop where
  entries : Toml.entriesOf text = some (settings.map fun s => (s.1, .text s.2))
  known : ∀ s ∈ settings, s.1 ∈ keys

/-- A text that is no configuration. -/
inductive Unusable (text : String) : Prop
  /-- it is not TOML -/
  | noToml (h : Toml.entriesOf text = none)
  /-- it has a key that is no setting -/
  | unknownKey {entries : Entries} {key : String} {value : Value}
      (h : Toml.entriesOf text = some entries) (hentry : (key, value) ∈ entries)
      (hkey : key ∉ keys)
  /-- it has a value that is no text -/
  | noText {entries : Entries} {key : String} {value : Value}
      (h : Toml.entriesOf text = some entries) (hentry : (key, value) ∈ entries)
      (hvalue : ∀ content, value ≠ .text content)

/-- A text is no configuration, or a list of settings. -/
theorem unusable_or_sets (text : String) : Unusable text ∨ ∃ settings, Sets text settings := by
  cases h : Toml.entriesOf text with
  | none => exact Or.inl (.noToml h)
  | some entries =>
    by_cases hkeys : ∀ entry ∈ entries, entry.1 ∈ keys
    · by_cases htexts : ∀ entry ∈ entries, ∃ content, entry.2 = .text content
      · have hmap : entries ∈ Set.range (List.map fun s : String × String => (s.1, Value.text s.2)) := by
          rw [Set.range_list_map]
          intro entry hentry
          obtain ⟨content, hcontent⟩ := htexts entry hentry
          exact ⟨(entry.1, content), Prod.ext rfl hcontent.symm⟩
        obtain ⟨settings, rfl⟩ := hmap
        refine Or.inr ⟨settings, h, fun s hs => ?_⟩
        exact hkeys _ (List.mem_map_of_mem hs)
      · push Not at htexts
        obtain ⟨⟨key, value⟩, hentry, hvalue⟩ := htexts
        exact Or.inl (.noText h hentry hvalue)
    · push Not at hkeys
      obtain ⟨⟨key, value⟩, hentry, hkey⟩ := hkeys
      exact Or.inl (.unknownKey h hentry hkey)

/-- The settings of a text have distinct keys. -/
theorem Sets.nodup (h : Sets text settings) : (settings.map (·.1)).Nodup := by
  have hdistinct := distinct_entriesOf h.entries
  rwa [Entries.Distinct, List.map_map] at hdistinct

/-- A configuration with defaults for what settings leave out. -/
def ofSettings (settings : List (String × String)) : Config :=
  let path (key : String) := (settings.lookup key).map PathName.mk
  let defaults : Config := {}
  { schema := (path "schema").getD defaults.schema
    outputRoot := (path "output_root").getD defaults.outputRoot
    enumDir := (path "enum_dir").getD defaults.enumDir
    structDir := (path "struct_dir").getD defaults.structDir
    backend := (settings.lookup "backend").getD defaults.backend }

/-! ## Drafts -/

/-- What a draft has of a key, as a text. -/
def Draft.text? (d : Draft) : String → Option String
  | "schema" => d.schema.map (·.text)
  | "output_root" => d.outputRoot.map (·.text)
  | "enum_dir" => d.enumDir.map (·.text)
  | "struct_dir" => d.structDir.map (·.text)
  | "backend" => d.backend
  | _ => none

@[simp] theorem Draft.text?_start (key : String) : ({} : Draft).text? key = none := by
  unfold text?
  split <;> rfl

theorem readText_ofText (doc : Document) (text : String) : readText doc (.ofText text) = .ok text :=
  rfl

/-- A text is put into the place of its key, if that is free, and into no other place. -/
theorem Draft.put_text {key : String} (doc : Document) (hkey : key ∈ keys)
    (hfree : d.text? key = none) (text : String) :
    ∃ d', d.put doc key (.ofText text) = .ok d' ∧ d'.text? key = some text ∧
      ∀ other, other ≠ key → d'.text? other = d.text? other := by
  simp only [keys, List.mem_cons, List.not_mem_nil, or_false] at hkey
  -- the five keys differ only in the place that they are for
  rcases hkey with rfl | rfl | rfl | rfl | rfl
  all_goals
    simp only [text?, Option.map_eq_none_iff] at hfree
    refine ⟨_, by simp only [put, fill, hfree]; rfl, rfl, fun other hother => ?_⟩
    unfold text?
    split <;> first | rfl | contradiction

/-- Whatever is put into a draft is a text, and its key is a setting. -/
theorem Draft.known_of_put {key : String} {node : Node} (h : d.put doc key node = .ok d') :
    key ∈ keys ∧ ∃ text, readText doc node = .ok text := by
  have hpath : (∃ path, readPath doc node = .ok path) → ∃ text, readText doc node = .ok text := by
    rintro ⟨path, hpath⟩
    unfold readPath at hpath
    cases hread : readText doc node with
    | ok text => exact ⟨text, rfl⟩
    | error complaint =>
      rw [hread] at hpath
      cases hpath
  unfold Draft.put at h
  split at h
  · exact ⟨by decide, hpath (exists_of_fill h)⟩
  · exact ⟨by decide, hpath (exists_of_fill h)⟩
  · exact ⟨by decide, hpath (exists_of_fill h)⟩
  · exact ⟨by decide, hpath (exists_of_fill h)⟩
  · exact ⟨by decide, exists_of_fill h⟩
  · cases h

/-- Texts are put into a draft that has nothing of their keys, in whatever order they come. -/
theorem readEntries_texts {named : List (String × Node)} (hnodup : (named.map (·.1)).Nodup)
    (hknown : ∀ entry ∈ named, entry.1 ∈ keys)
    (htexts : ∀ entry ∈ named, ∃ text, entry.2 = .ofText text)
    (hfree : ∀ entry ∈ named, d.text? entry.1 = none) :
    ∃ d', readEntries doc (layout doc).put (named.map fun entry => (.ofText entry.1, entry.2)) d =
        .ok d' ∧
      (∀ key text, (key, .ofText text) ∈ named → d'.text? key = some text) ∧
      ∀ key ∉ named.map (·.1), d'.text? key = d.text? key := by
  -- a place that has been filled is not touched again, since keys do not repeat
  induction named generalizing d with
  | nil => exact ⟨d, rfl, by simp, fun _ _ => rfl⟩
  | cons entry named ih =>
    obtain ⟨key, node⟩ := entry
    simp only [List.forall_mem_cons] at hknown htexts hfree
    obtain ⟨⟨text, rfl⟩, htexts⟩ := htexts
    obtain ⟨hkey, hrest⟩ := List.nodup_cons.mp hnodup
    obtain ⟨next, hput, hsome, hothers⟩ := Draft.put_text doc hknown.1 hfree.1 text
    have hne : ∀ entry ∈ named, entry.1 ≠ key := fun entry hentry heq =>
      hkey (List.mem_map.mpr ⟨entry, hentry, heq⟩)
    obtain ⟨last, hread, htaken, hleft⟩ := ih hrest hknown.2 htexts fun entry hentry =>
      (hothers _ (hne entry hentry)).trans (hfree.2 entry hentry)
    refine ⟨last, ?_, ?_, ?_⟩
    · simp only [List.map_cons, readEntries, readText_ofText, layout, bind, Except.bind, hput]
      exact hread
    · intro other content hmem
      rcases List.mem_cons.mp hmem with heq | hmem
      · cases heq
        exact (hleft key hkey).trans hsome
      · exact htaken other content hmem
    · intro other hother
      rw [List.map_cons, List.mem_cons, not_or] at hother
      exact (hleft other hother.2).trans (hothers other hother.1)

/-- A draft that has the settings is finished to their configuration. -/
theorem Draft.finish_eq (h : ∀ key ∈ keys, d.text? key = settings.lookup key) :
    d.finish = ofSettings settings := by
  have hpath : ∀ {place : Option PathName} {text : Option String},
      place.map (·.text) = text → place = text.map .mk := by
    rintro (_ | path) _ rfl <;> rfl
  simp only [keys, List.forall_mem_cons] at h
  obtain ⟨hschema, houtput, henum, hstruct, hbackend, -⟩ := h
  unfold finish ofSettings
  rw [hpath hschema, hpath houtput, hpath henum, hpath hstruct]
  exact congrArg (fun backend => Config.mk _ _ _ _ (Option.getD backend _)) hbackend

/-! ## Texts -/

/-- The root of a text, as it is read. -/
theorem ofToml_eq {entries : Entries} (h : Toml.entriesOf text = some entries) :
    ofToml text =
      (readTable (documentOf text) (layout (documentOf text))
        ((Entries.sorted (entryNodesOf entries)).map fun entry => (.ofText entry.1, entry.2))
        ((Value.table .headed entries).toNode.whole)).mapError (.config <| .document ·) := by
  have hroot : (documentOf text).root = (Value.table .headed entries).toNode := by
    rw [documentOf, h]
  simp only [ofToml, hroot]
  rw [Value.toNode]
  rfl

/-- The configuration of settings is read from their nodes, in whatever order they come. -/
theorem readEntries_settings {named : List (String × Node)} (doc : Document)
    (hperm : named.Perm (settings.map fun s => (s.1, .ofText s.2)))
    (hnodup : (settings.map (·.1)).Nodup) (hknown : ∀ s ∈ settings, s.1 ∈ keys) :
    ∃ last, readEntries doc (layout doc).put (named.map fun entry => (.ofText entry.1, entry.2)) {} =
        .ok last ∧ last.finish = ofSettings settings := by
  have hmem : ∀ entry ∈ named, ∃ s ∈ settings, (s.1, Node.ofText s.2) = entry :=
    fun entry hentry => List.mem_map.mp (hperm.mem_iff.mp hentry)
  have hkeys : (named.map (·.1)).Perm (settings.map (·.1)) := by
    have hmap := hperm.map (·.1)
    rwa [List.map_map] at hmap
  obtain ⟨last, hread, htaken, hleft⟩ :=
    @readEntries_texts doc {} named (hkeys.nodup_iff.mpr hnodup)
      (fun entry hentry => by
        obtain ⟨s, hs, rfl⟩ := hmem entry hentry
        exact hknown s hs)
      (fun entry hentry => by
        obtain ⟨s, -, rfl⟩ := hmem entry hentry
        exact ⟨s.2, rfl⟩)
      fun entry _ => Draft.text?_start entry.1
  refine ⟨last, hread, Draft.finish_eq fun key _ => ?_⟩
  cases hlookup : settings.lookup key with
  | some text =>
    obtain ⟨before, after, rfl, -⟩ := List.lookup_eq_some_iff.mp hlookup
    exact htaken key text (hperm.mem_iff.mpr (by simp))
  | none =>
    refine (hleft key fun hkey => ?_).trans (Draft.text?_start key)
    obtain ⟨s, hs, rfl⟩ := List.mem_map.mp (hkeys.mem_iff.mp hkey)
    simpa using List.lookup_eq_none_iff.mp hlookup s hs

/-- The configuration of a text is that of its settings. -/
theorem ofToml_of_sets (h : Sets text settings) : ofToml text = .ok (ofSettings settings) := by
  have hnodes : entryNodesOf (settings.map fun s => (s.1, .text s.2)) =
      settings.map fun s => (s.1, .ofText s.2) := by
    rw [entryNodesOf_eq_map, List.map_map]
    rfl
  have hperm := perm_sorted (settings.map fun s => (s.1, Node.ofText s.2))
  obtain ⟨last, hread, hlast⟩ := readEntries_settings (documentOf text) hperm h.nodup h.known
  have hwhole : (Value.table .headed (settings.map fun s => (s.1, .text s.2))).toNode.whole = true := by
    rw [Value.toNode, hnodes]
    refine List.all_eq_true.mpr fun pair hpair => ?_
    obtain ⟨entry, hentry, rfl⟩ := List.mem_map.mp hpair
    obtain ⟨s, -, rfl⟩ := List.mem_map.mp (hperm.mem_iff.mp hentry)
    rfl
  have hstart : readEntries _ _ _ (layout (documentOf text)).start = .ok last := hread
  rw [ofToml_eq h.entries, hwhole, hnodes, readTable, hstart, ← hlast]
  rfl

/-! ## Texts without settings -/

/-- Only a text is taken for a text. -/
theorem eq_text_of_readText {value : Value} {content : String}
    (h : readText doc value.toNode = .ok content) : ∃ content, value = .text content := by
  cases value with
  | text content => exact ⟨content, rfl⟩
  | integer z =>
    rw [Value.toNode] at h
    split at h <;> cases h
  | overflow => cases h
  | plain => cases h
  | moment => cases h
  | list items ofTables => cases h
  | table kind entries => cases h

/-- What a configuration is read from has no other keys than settings, and texts for them. -/
theorem texts_of_ofToml {config : Config} {entries : Entries} (h : ofToml text = .ok config)
    (hentries : Toml.entriesOf text = some entries) :
    ∀ entry ∈ entries, entry.1 ∈ keys ∧ ∃ content, entry.2 = .text content := by
  intro entry hentry
  let named := Entries.sorted (entryNodesOf entries)
  have hnamed : Named (documentOf text) (named.map fun entry => (.ofText entry.1, entry.2)) named :=
    List.forall₂_map_left_iff.mpr (List.forall₂_same.mpr fun _ _ => ⟨rfl, rfl⟩)
  have hmem : (entry.1, entry.2.toNode) ∈ named := by
    refine (perm_sorted _).mem_iff.mpr ?_
    rw [entryNodesOf_eq_map]
    exact List.mem_map_of_mem hentry
  rw [ofToml_eq hentries, readTable] at h
  cases hread : readEntries (documentOf text) (layout (documentOf text)).put
      (named.map fun entry => (.ofText entry.1, entry.2)) {} with
  | error complaint =>
    have hstart : readEntries _ _ _ (layout (documentOf text)).start = .error complaint := hread
    rw [hstart] at h
    cases h
  | ok last =>
    obtain ⟨before, hput⟩ := put_of_readEntries hnamed hread hmem
    obtain ⟨after, hafter⟩ := hput _ rfl
    obtain ⟨hkey, content, hcontent⟩ := Draft.known_of_put hafter
    exact ⟨hkey, eq_text_of_readText hcontent⟩

/-- No configuration is read from a text that is none. -/
theorem ofToml_of_unusable (h : Unusable text) :
    ∃ complaint, ofToml text = .error (.config (.document complaint)) := by
  cases hconfig : ofToml text with
  | ok config =>
    exfalso
    cases h with
    | noToml h =>
      rw [ofToml, documentOf, h] at hconfig
      cases hconfig
    | unknownKey h hentry hkey => exact hkey (texts_of_ofToml hconfig h _ hentry).1
    | noText h hentry hvalue =>
      obtain ⟨content, hcontent⟩ := (texts_of_ofToml hconfig h _ hentry).2
      exact hvalue content hcontent
  | error failure =>
    simp only [ofToml] at hconfig
    cases hread : readRecord (documentOf text) .refused (layout (documentOf text))
        (documentOf text).root with
    | ok config =>
      rw [hread] at hconfig
      cases hconfig
    | error complaint =>
      rw [hread] at hconfig
      cases hconfig
      exact ⟨complaint, rfl⟩

/-! ## Writing settings -/

/-- Settings as lines of TOML. -/
def settingLines (settings : List (String × String)) : List Char :=
  settings.flatMap fun s => tomlEntry (s.1, '"' :: (spell s.2.toList ++ ['"'])) ++ ['\n']

/-- Settings as a text. -/
def settingsText (settings : List (String × String)) : String :=
  String.ofList (settingLines settings)

theorem settingLines_cons (s : String × String) (settings : List (String × String)) :
    settingLines (s :: settings) =
      tomlEntry (s.1, '"' :: (spell s.2.toList ++ ['"'])) ++ '\n' :: settingLines settings := by
  simp [settingLines]

/-- Lines enter their settings into the table at the root, one by one. -/
theorem leads_settingLines {root : Entries} (hkeys : ∀ s ∈ settings, IsBareKey s.1)
    (hnodup : (settings.map (·.1)).Nodup)
    (hfree : ∀ s ∈ settings, ∀ entry ∈ root, entry.1 ≠ s.1) :
    Leads { root } (settingLines settings)
      { root := root ++ settings.map fun s => (s.1, .text s.2) } [] := by
  induction settings generalizing root with
  | nil =>
    intro before
    exact ⟨before, by simp [settingLines]⟩
  | cons s settings ih =>
    obtain ⟨key, text⟩ := s
    simp only [List.forall_mem_cons] at hkeys hfree
    obtain ⟨hkey, hrest⟩ := List.nodup_cons.mp hnodup
    have hline : Leads { root }
        (tomlEntry (key, '"' :: (spell text.toList ++ ['"'])) ++ '\n' :: settingLines settings)
        { root := root ++ [(key, .text text)], place := .lineEnd }
        ('\n' :: settingLines settings) :=
      leads_assignment hkeys.1 rfl rfl hfree.1 fun s' _ hplace hsupply =>
        leads_text s' (Or.inl hplace) (stops_of_mark (by decide) _) hsupply
    have hnext : Leads { root := root ++ [(key, .text text)] } (settingLines settings)
        { root := root ++ [(key, .text text)] ++ settings.map fun s => (s.1, .text s.2) } [] := by
      refine ih hkeys.2 hrest fun s hs entry hentry => ?_
      rcases List.mem_append.mp hentry with hentry | hentry
      · exact hfree.2 s hs entry hentry
      · rw [List.mem_singleton.mp hentry]
        exact fun heq => hkey (List.mem_map.mpr ⟨s, hs, heq.symm⟩)
    rw [List.append_assoc] at hnext
    rw [settingLines_cons]
    exact hline.trans ((leads_sign fun _ => ⟨.newline, rfl, rfl⟩).trans hnext)

/-- The table of a text of lines has an entry for each of them. -/
theorem entriesOf_settingsText (hnodup : (settings.map (·.1)).Nodup)
    (hkeys : ∀ s ∈ settings, IsBareKey s.1) :
    Toml.entriesOf (settingsText settings) = some (settings.map fun s => (s.1, .text s.2)) := by
  have hmark : (settingLines settings).head? ≠ some '\ufeff' := by
    cases settings with
    | nil => simp [settingLines]
    | cons s settings =>
      rw [settingLines_cons]
      exact head?_tomlEntry_ne (hkeys s (List.mem_cons_self ..)) _ _
  rw [settingsText, entriesOf_of_leads hmark (leads_settingLines hkeys hnodup (by simp))]
  rfl

/-- Settings are read from their lines as they were written. -/
theorem sets_settingsText (hnodup : (settings.map (·.1)).Nodup)
    (hknown : ∀ s ∈ settings, s.1 ∈ keys) : Sets (settingsText settings) settings where
  entries := entriesOf_settingsText hnodup fun s hs =>
    (by decide : ∀ key ∈ keys, IsBareKey key) _ (hknown s hs)
  known := hknown

end Config

end SchemaHeaders
