import SchemaHeaders.Naming
import SchemaHeaders.Proofs.PlainPath

/-!
# Marks in names

A mark is an ASCII character other than a letter, and NUL is none (`Text.IsMark`). A change of case
neither makes a mark nor takes one away (`mem_upper_iff`, `mem_lower_iff`). The case conventions
take away the underscores and keep the other marks (`mem_pascalChars_iff`, `mem_camelChars_iff`).
-/

namespace SchemaHeaders

/-! ## Marks in upper and lower case -/

namespace Text

/-- An ASCII character other than NUL that is no letter. -/
structure IsMark (x : Char) : Prop where
  pos : 0 < x.toNat
  ascii : x.toNat < 0x80
  no_letter : x.isAlpha = false

/-- Whether a code point is outside ASCII or that of a letter. -/
def letterOrBeyond (n : Nat) : Bool := 0x80 ≤ n || (Char.ofNat n).isAlpha

theorem IsMark.ne_ofNat {x : Char} (hx : IsMark x) {n : Nat} (h : letterOrBeyond n = true) :
    Char.ofNat n ≠ x := by
  rintro rfl
  rcases Bool.or_eq_true_iff.mp h with hbeyond | hletter
  · have hn : 0x80 ≤ n := by simpa using hbeyond
    have hpos := hx.pos
    have hascii := hx.ascii
    by_cases hvalid : n.isValidChar
    · rw [Char.ofNat, dif_pos hvalid] at hascii
      change n < 0x80 at hascii
      omega
    · rw [Char.ofNat, dif_neg hvalid] at hpos
      exact absurd hpos (by decide)
  · rw [hx.no_letter] at hletter
    cases hletter

/-- Whether a run maps to no mark. -/
def CaseRun.avoidsMarks (run : CaseRun) : Bool :=
  0x80 ≤ run.first + run.shift ||
    (run.first == run.last && letterOrBeyond (run.first + run.shift).toNat)

variable {x : Char}

/-- Tables that map to no mark leave only a mark itself as one. -/
theorem eq_of_mem_mapCase {expansions : List (Nat × List Nat)} {runs : List CaseRun} {c : Char}
    (hx : IsMark x) (hexpansions : (expansions.all fun e => e.2.all letterOrBeyond) = true)
    (hruns : runs.all CaseRun.avoidsMarks = true) (h : x ∈ mapCase expansions runs c) : c = x := by
  unfold mapCase at h
  split at h
  · rename_i codes hlookup
    obtain ⟨n, hn, hchar⟩ := List.mem_map.mp h
    obtain ⟨before, after, hentries, -⟩ := List.lookup_eq_some_iff.mp hlookup
    have hcodes := List.all_eq_true.mp hexpansions (c.toNat, codes) (by simp [hentries])
    exact absurd hchar (hx.ne_ofNat (List.all_eq_true.mp hcodes n hn))
  · rw [List.mem_singleton, shiftCase] at h
    split at h
    · rename_i run hrun
      have havoids := List.all_eq_true.mp hruns run (List.mem_of_find?_eq_some hrun)
      have hcovers := List.find?_some hrun
      simp only [CaseRun.covers, Bool.and_eq_true, decide_eq_true_eq] at hcovers
      refine absurd h.symm (hx.ne_ofNat ?_)
      simp only [CaseRun.avoidsMarks, Bool.or_eq_true, Bool.and_eq_true, decide_eq_true_eq,
        beq_iff_eq] at havoids
      rcases havoids with hbeyond | ⟨hone, hletter⟩
      · rw [letterOrBeyond, Bool.or_eq_true, decide_eq_true_eq]
        exact Or.inl (by omega)
      · have hsame : run.first = c.toNat := by omega
        rwa [hsame] at hletter
    · exact h.symm

/-- A map of ASCII that changes letters into letters only leaves marks alone. -/
theorem eq_iff_of_ascii {f : Char → Char} (hf : ∀ n < 0x80, f (.ofNat n) = .ofNat n ∨
    (Char.ofNat n).isAlpha = true ∧ (f (.ofNat n)).isAlpha = true) (hx : IsMark x) {c : Char}
    (hc : c.toNat < 0x80) : x = f c ↔ c = x := by
  have hchar := hf c.toNat hc
  rw [Char.ofNat_toNat] at hchar
  rcases hchar with hsame | ⟨hletter, himage⟩
  · rw [hsame, eq_comm]
  · constructor
    · rintro rfl
      rw [hx.no_letter] at himage
      cases himage
    · rintro rfl
      rw [hx.no_letter] at hletter
      cases hletter

/-- A mark is in the case of itself alone, if ASCII and the tables beyond it make no marks. -/
theorem mem_case_iff {f : Char → Char} {expansions : List (Nat × List Nat)} {runs : List CaseRun}
    (hf : ∀ n < 0x80, f (.ofNat n) = .ofNat n ∨
      (Char.ofNat n).isAlpha = true ∧ (f (.ofNat n)).isAlpha = true)
    (hexpansions : (expansions.all fun e => e.2.all letterOrBeyond) = true)
    (hruns : runs.all CaseRun.avoidsMarks = true) (hx : IsMark x) (c : Char) :
    x ∈ (if c.toNat < 0x80 then [f c] else mapCase expansions runs c) ↔ c = x := by
  split
  · rename_i hascii
    rw [List.mem_singleton]
    exact eq_iff_of_ascii hf hx hascii
  · rename_i hbeyond
    refine ⟨eq_of_mem_mapCase hx hexpansions hruns, ?_⟩
    rintro rfl
    exact absurd hx.ascii hbeyond

/-- A mark is in the upper case of itself alone. -/
theorem mem_upper_iff (hx : IsMark x) (c : Char) : x ∈ upper c ↔ c = x :=
  mem_case_iff (by decide) (by decide +kernel) (by decide +kernel) hx c

/-- A mark is in the lower case of itself alone. -/
theorem mem_lower_iff (hx : IsMark x) (c : Char) : x ∈ lower c ↔ c = x :=
  mem_case_iff (by decide) (by decide +kernel) (by decide +kernel) hx c

end Text

/-! ## Marks in words -/

namespace Naming

open Text

variable {x : Char}

theorem mem_titleChars_iff (hx : IsMark x) :
    ∀ (afterLetter : Bool) (word : List Char), x ∈ titleChars afterLetter word ↔ x ∈ word
  | _, [] => by simp [titleChars]
  | afterLetter, c :: cs => by
    rw [titleChars, List.mem_append, mem_titleChars_iff hx _ cs, List.mem_cons, eq_comm (a := x)]
    cases afterLetter with
    | true => rw [if_pos rfl, mem_lower_iff hx]
    | false => rw [if_neg (by simp), mem_upper_iff hx]

theorem mem_lowerChars_iff (hx : IsMark x) :
    ∀ before word : List Char, x ∈ lowerChars before word ↔ x ∈ word
  | _, [] => by simp [lowerChars]
  | before, c :: cs => by
    rw [lowerChars, List.mem_append, mem_lowerChars_iff hx _ cs, List.mem_cons, eq_comm (a := x)]
    refine or_congr_left ?_
    by_cases hc : c = 'Σ'
    · subst hc
      -- Neither form of the small sigma is a mark, and the capital is none.
      have hbeyond : ∀ d : Char, 0x80 ≤ d.toNat → x ≠ d := fun d hd h =>
        absurd hx.ascii (by rw [h]; exact not_lt.mpr hd)
      rw [if_pos rfl, List.mem_singleton]
      refine iff_of_false ?_ (hbeyond 'Σ' (by decide)).symm
      split
      · exact hbeyond 'ς' (by decide)
      · exact hbeyond 'σ' (by decide)
    · rw [if_neg hc, mem_lower_iff hx]

/-! ## Marks in names -/

/-- The words of a name have its marks but the underscores. -/
theorem mem_words_iff (name : List Char) :
    (x ∈ (words name).1 ∨ ∃ word ∈ (words name).2, x ∈ word) ↔ x ∈ name ∧ x ≠ '_' := by
  by_cases hunderscore : x = '_'
  · subst hunderscore
    obtain ⟨hfirst, hothers⟩ := sep_not_mem_pieces '_' name
    refine iff_of_false ?_ fun h => h.2 rfl
    rintro (h | ⟨word, hword, h⟩)
    · exact hfirst h
    · exact hothers word hword h
  · exact (mem_pieces_iff hunderscore name).trans (and_iff_left hunderscore).symm

/-- Pascal case keeps every mark but the underscore. -/
theorem mem_pascalChars_iff (hx : IsMark x) (name : List Char) :
    x ∈ pascalChars name ↔ x ∈ name ∧ x ≠ '_' := by
  rw [← mem_words_iff name]
  simp only [pascalChars, List.mem_append, List.mem_flatMap, mem_titleChars_iff hx]

/-- Camel case keeps every mark but the underscore. -/
theorem mem_camelChars_iff (hx : IsMark x) (name : List Char) :
    x ∈ camelChars name ↔ x ∈ name ∧ x ≠ '_' := by
  rw [← mem_words_iff name]
  simp only [camelChars, List.mem_append, List.mem_flatMap, mem_titleChars_iff hx,
    mem_lowerChars_iff hx]

end Naming

end SchemaHeaders
