import Mathlib.Data.List.TakeWhile
import PidtreeBcc.Plugins.Sourceipmap
import PidtreeBcc.Support.Words

/-!
# HostsFormat — files in the format of `/etc/hosts`

A line of such a file is blank, a comment, or an address with its names, after which a comment may follow.

`hosts_loader` leaves out the comments whose line begins with the sign `#` itself, and nothing else: an
indented comment becomes an entry, and a comment after the names becomes part of them.  So it reads the
format just when no comment is indented and no comment follows the names in the last entry of an address.
-/

namespace PidtreeBcc

open Support

namespace Plugins

/-! ## The format -/

/-- The characters that end a line of a text file. -/
def EndsLine (c : Char) : Prop := c = '\n' ∨ c = '\r'

instance (c : Char) : Decidable (EndsLine c) := inferInstanceAs (Decidable (_ ∨ _))

/-- White space within a line. -/
structure Blank where
  chars : List Char
  isspace : ∀ c ∈ chars, isspace c = true ∧ ¬ EndsLine c

/-- White space that separates two words. -/
structure Gap extends Blank where
  ne_nil : chars ≠ []

/-- An address or a name. -/
structure Word where
  chars : List Char
  ne_nil : chars ≠ []
  plain : ∀ c ∈ chars, isspace c = false ∧ c ≠ '#'

/-- What follows the sign `#` up to the end of the line. -/
structure Comment where
  text : List Char
  one_line : ∀ c ∈ text, ¬ EndsLine c

/-- An address with its names, each after a gap. -/
structure Entry where
  indent : Blank
  address : Word
  names : List (Gap × Word)
  names_ne_nil : names ≠ []
  trailing : Blank
  comment : Option Comment

inductive HostLine
  | blank (space : Blank)
  | comment (indent : Blank) (comment : Comment)
  | entry (e : Entry)

def Comment.render (comment : Comment) : List Char := '#' :: comment.text

def Entry.renderNames (entry : Entry) : List Char :=
  entry.names.flatMap fun name => name.1.chars ++ name.2.chars

def Entry.renderComment (entry : Entry) : List Char := (entry.comment.map Comment.render).getD []

def HostLine.render : HostLine → List Char
  | blank space => space.chars
  | comment indent c => indent.chars ++ c.render
  | entry e =>
      e.indent.chars ++ (e.address.chars ++ (e.renderNames ++ (e.trailing.chars ++ e.renderComment)))

def Entry.key (entry : Entry) : String := String.ofList entry.address.chars

/-- The names, joined by single spaces. -/
def Entry.joinedNames (entry : Entry) : String :=
  String.ofList ([' '].intercalate (entry.names.map fun name => name.2.chars))

def HostLine.entry? : HostLine → Option Entry
  | entry e => some e
  | _ => none

/-- The last entry for an address. -/
def lastEntry (lines : List HostLine) (address : String) : Option Entry :=
  (lines.filterMap HostLine.entry?).reverse.find? fun entry => entry.key = address

/-! ## Reading a file -/

/-- What `open` makes of a text: `\r\n` and `\r` end a line as `\n` does. -/
def universalNewlines : List Char → List Char
  | '\r' :: '\n' :: rest => '\n' :: universalNewlines rest
  | '\r' :: rest => '\n' :: universalNewlines rest
  | c :: rest => c :: universalNewlines rest
  | [] => []

/-- The lines without what ends them; behind the last end there is an empty one. -/
def textLines (text : List Char) : List (List Char) := (universalNewlines text).splitOn '\n'

/-- The lines with the newlines that end them; nothing follows the last newline. -/
def withNewlines : List (List Char) → Mapfile
  | [] => []
  | [last] => if last = [] then [] else [last]
  | line :: rest => (line ++ ['\n']) :: withNewlines rest

/-- What iterating over a file with this text gives. -/
def mapfileOf (text : List Char) : Mapfile := withNewlines (textLines text)

/-- A text that is made of lines of the format, whatever ends each of them. -/
structure HostsFile where
  text : List Char
  lines : List HostLine
  made : textLines text = lines.map HostLine.render

/-- The map has the addresses of the entries as its keys, each with the names of its last entry. -/
def ReadsFormat (file : HostsFile) : Prop :=
  ∀ key, (hostsLoader (mapfileOf file.text)).get? key =
    (lastEntry file.lines key).map Entry.joinedNames

def HostLine.IndentedComment : HostLine → Prop
  | comment indent _ => indent.chars ≠ []
  | _ => False

/-! ## What a line sets -/

/-- The item of `return_dict` that a line sets, if it is not left out. -/
def assignment (line : List Char) : Option (String × String) :=
  if line.head? = some '#' then none
  else
    match split line with
    | [] => none
    | key :: names => some (String.ofList key, String.ofList ([' '].intercalate names))

theorem split_eq_words (s : List Char) : split s = Words.words isspace s := rfl

/-- `strip` makes no difference to the words. -/
theorem split_strip (s : List Char) : split (strip s) = split s := by
  have hleft : ∀ s : List Char, split (s.dropWhile isspace) = split s := by
    intro s
    have hspace : ∀ c ∈ s.takeWhile isspace, isspace c = true := fun c hc => List.mem_takeWhile_imp hc
    have hparts := Words.words_append_of_seps_left hspace (s.dropWhile isspace)
    rw [List.takeWhile_append_dropWhile] at hparts
    exact hparts.symm
  have hright : ∀ s : List Char, split ((s.reverse.dropWhile isspace).reverse) = split s := by
    intro s
    have hspace : ∀ c ∈ (s.reverse.takeWhile isspace).reverse, isspace c = true :=
      fun c hc => List.mem_takeWhile_imp (List.mem_reverse.1 hc)
    have hparts := Words.words_append_of_seps_right hspace (s.reverse.dropWhile isspace).reverse
    rw [← List.reverse_append, List.takeWhile_append_dropWhile, List.reverse_reverse] at hparts
    exact hparts.symm
  calc
    split (strip s) = split (s.dropWhile isspace) := hright (s.dropWhile isspace)
    _ = split s := hleft s

theorem strip_eq_nil_iff {line : List Char} : strip line = [] ↔ split line = [] := by
  constructor
  · intro h
    rw [← split_strip, h]
    rfl
  · intro h
    by_contra hne
    exact split_strip_ne_nil hne (by rw [split_strip, h])

theorem hostsLoader_eq (mapfile : Mapfile) :
    hostsLoader mapfile = Dict.empty.update (mapfile.filterMap assignment) := by
  have hfold : ∀ (lines : Mapfile) (d : Dict String String),
      ((lines.filter fun line => line.head? ≠ some '#' && strip line ≠ []).map strip).foldl
        (fun returnDict line =>
          match split line with
          | [] => returnDict
          | key :: names =>
              returnDict.set (String.ofList key) (String.ofList ([' '].intercalate names))) d =
        d.update (lines.filterMap assignment) := by
    intro lines
    induction lines with
    | nil => exact fun d => rfl
    | cons line lines ih =>
        intro d
        by_cases hcomment : line.head? = some '#'
        · simpa [hcomment, assignment] using ih d
        · cases hwords : split line with
          | nil =>
              have hblank : strip line = [] := strip_eq_nil_iff.2 hwords
              simpa [hcomment, hblank, assignment, hwords] using ih d
          | cons key names =>
              have hblank : strip line ≠ [] := by simp [strip_eq_nil_iff, hwords]
              simpa [hcomment, hblank, assignment, hwords, split_strip] using ih _
  exact hfold mapfile Dict.empty

theorem assignment_append_newline (line : List Char) : assignment (line ++ ['\n']) = assignment line := by
  have hsplit : split (line ++ ['\n']) = split line :=
    Words.words_append_of_seps_right (by simp [isspace]) line
  cases line with
  | nil => rfl
  | cons c line =>
      rw [assignment, hsplit]
      rfl

theorem filterMap_withNewlines :
    ∀ lines, (withNewlines lines).filterMap assignment = lines.filterMap assignment
  | [] => rfl
  | [last] => by
      by_cases hlast : last = []
      · simp [withNewlines, hlast, assignment, split, List.splitOnP_nil]
      · simp [withNewlines, hlast]
  | line :: next :: rest => by
      have ih := filterMap_withNewlines (next :: rest)
      rw [withNewlines, List.filterMap_cons, List.filterMap_cons, assignment_append_newline, ih]
      simp

/-! ## What the lines of the format set -/

/-- The file sets what its lines set. -/
theorem hostsLoader_text (file : HostsFile) :
    hostsLoader (mapfileOf file.text) =
      Dict.empty.update (file.lines.filterMap fun line => assignment line.render) := by
  rw [hostsLoader_eq, mapfileOf, filterMap_withNewlines, file.made, List.filterMap_map]
  rfl

theorem assignment_blank (space : Blank) : assignment (HostLine.blank space).render = none := by
  have hsplit : split space.chars = [] := Words.words_of_seps fun c hc => (space.isspace c hc).1
  simp [assignment, HostLine.render, hsplit]

/-- A comment that is indented sets its first word, which begins with the sign. -/
theorem assignment_comment (indent : Blank) (comment : Comment) :
    (indent.chars = [] ∧ assignment (HostLine.comment indent comment).render = none) ∨
      (indent.chars ≠ [] ∧ ∃ word value,
        assignment (HostLine.comment indent comment).render = some (String.ofList ('#' :: word), value)) := by
  by_cases hindent : indent.chars = []
  · exact .inl ⟨hindent, by simp [assignment, HostLine.render, Comment.render, hindent]⟩
  · refine .inr ⟨hindent, ?_⟩
    obtain ⟨c, rest, hchars⟩ := List.exists_cons_of_ne_nil hindent
    have hc : c ≠ '#' := by
      rintro rfl
      exact absurd (indent.isspace '#' (by simp [hchars])).1 (by decide)
    have hsign : isspace '#' = false := by decide
    obtain ⟨word, names, hwords⟩ := Words.exists_words_cons hsign comment.text
    have hsplit : split (HostLine.comment indent comment).render = ('#' :: word) :: names := by
      rw [← hwords]
      exact Words.words_append_of_seps_left (fun c hc => (indent.isspace c hc).1) _
    have hhead : (HostLine.comment indent comment).render.head? ≠ some '#' := by
      simp [HostLine.render, hchars, hc]
    exact ⟨word, String.ofList ([' '].intercalate names), by simp [assignment, hhead, hsplit]⟩

theorem head_gap (gap : Gap) (rest : List Char) :
    ∀ c ∈ (gap.chars ++ rest).head?, isspace c = true := by
  obtain ⟨first, others, hgap⟩ := List.exists_cons_of_ne_nil gap.ne_nil
  intro c hc
  have hfirst : first = c := by simpa [hgap] using hc
  exact (gap.isspace c (by simp [hgap, hfirst])).1

/-- Names begin with a gap. -/
theorem head_renderNames (names : List (Gap × Word)) {rest : List Char}
    (hrest : ∀ c ∈ rest.head?, isspace c = true) :
    ∀ c ∈ ((names.flatMap fun name => name.1.chars ++ name.2.chars) ++ rest).head?, isspace c = true := by
  cases names with
  | nil => exact hrest
  | cons name names =>
      simp only [List.flatMap_cons, List.append_assoc]
      exact head_gap name.1 _

theorem split_renderNames {rest : List Char} (hrest : ∀ c ∈ rest.head?, isspace c = true) :
    ∀ names : List (Gap × Word),
      split ((names.flatMap fun name => name.1.chars ++ name.2.chars) ++ rest) =
        (names.map fun name => name.2.chars) ++ split rest
  | [] => rfl
  | (gap, word) :: names => by
      have ih := split_renderNames hrest names
      have hword := Words.words_word_append word.ne_nil (fun c hc => (word.plain c hc).1)
        (head_renderNames names hrest)
      simp only [List.flatMap_cons, List.append_assoc, split_eq_words] at ih hword ⊢
      rw [Words.words_append_of_seps_left fun c hc => (gap.isspace c hc).1, hword, ih]
      simp

/-- The first word is the address, since the names begin with a gap. -/
theorem split_entry (e : Entry) :
    split (HostLine.entry e).render =
      e.address.chars :: split (e.renderNames ++ (e.trailing.chars ++ e.renderComment)) := by
  have hhead : ∀ c ∈ (e.renderNames ++ (e.trailing.chars ++ e.renderComment)).head?, isspace c = true := by
    obtain ⟨name, names, hnames⟩ := List.exists_cons_of_ne_nil e.names_ne_nil
    simp only [Entry.renderNames, hnames, List.flatMap_cons, List.append_assoc]
    exact head_gap name.1 _
  calc
    split (HostLine.entry e).render
        = split (e.address.chars ++ (e.renderNames ++ (e.trailing.chars ++ e.renderComment))) :=
          Words.words_append_of_seps_left (fun c hc => (e.indent.isspace c hc).1) _
    _ = e.address.chars :: split (e.renderNames ++ (e.trailing.chars ++ e.renderComment)) :=
          Words.words_word_append e.address.ne_nil (fun c hc => (e.address.plain c hc).1) hhead

theorem head_render_entry (e : Entry) : (HostLine.entry e).render.head? ≠ some '#' := by
  cases hindent : e.indent.chars with
  | nil =>
      obtain ⟨c, rest, hchars⟩ := List.exists_cons_of_ne_nil e.address.ne_nil
      have hc : c ≠ '#' := (e.address.plain c (by simp [hchars])).2
      simp [HostLine.render, hindent, hchars, hc]
  | cons c rest =>
      have hc : c ≠ '#' := by
        rintro rfl
        exact absurd (e.indent.isspace '#' (by simp [hindent])).1 (by decide)
      simp [HostLine.render, hindent, hc]

theorem assignment_entry (e : Entry) :
    assignment (HostLine.entry e).render =
      some (e.key, String.ofList ([' '].intercalate
        (split (e.renderNames ++ (e.trailing.chars ++ e.renderComment))))) := by
  rw [assignment, if_neg (head_render_entry e), split_entry]
  rfl

theorem assignment_entry_of_no_comment {e : Entry} (h : e.comment = none) :
    assignment (HostLine.entry e).render = some (e.key, e.joinedNames) := by
  have hspace : ∀ c ∈ e.trailing.chars, isspace c = true := fun c hc => (e.trailing.isspace c hc).1
  have htail : e.trailing.chars ++ e.renderComment = e.trailing.chars := by
    simp [Entry.renderComment, h]
  have hhead : ∀ c ∈ e.trailing.chars.head?, isspace c = true :=
    fun c hc => hspace c (List.mem_of_mem_head? hc)
  have hnames : split (e.renderNames ++ e.trailing.chars) = e.names.map fun name => name.2.chars := by
    have hwords := split_renderNames hhead e.names
    rwa [split_eq_words e.trailing.chars, Words.words_of_seps hspace, List.append_nil] at hwords
  rw [assignment_entry, htail, hnames, Entry.joinedNames]

/-! ## Comments in the names -/

theorem mem_intercalate {words : List (List Char)} {c : Char} (hc : c ≠ ' ') :
    c ∈ [' '].intercalate words ↔ ∃ word ∈ words, c ∈ word := by
  induction words with
  | nil => simp
  | cons word words ih =>
      cases words with
      | nil => simp
      | cons next words =>
          rw [List.intercalate_cons_cons, List.mem_append, List.mem_append, ih]
          simp [hc]

theorem not_mem_joinedNames (e : Entry) : '#' ∉ e.joinedNames.toList := by
  rw [Entry.joinedNames, String.toList_ofList, mem_intercalate (by decide)]
  rintro ⟨word, hword, hmem⟩
  obtain ⟨name, -, rfl⟩ := List.mem_map.1 hword
  exact (name.2.plain '#' hmem).2 rfl

/-- The sign of a comment stays in the value. -/
theorem assignment_entry_of_comment {e : Entry} (h : e.comment ≠ none) :
    ∃ value, assignment (HostLine.entry e).render = some (e.key, value) ∧ '#' ∈ value.toList := by
  obtain ⟨comment, hcomment⟩ := Option.ne_none_iff_exists'.1 h
  refine ⟨_, assignment_entry e, ?_⟩
  have hmem : '#' ∈ e.renderNames ++ (e.trailing.chars ++ e.renderComment) := by
    simp [Entry.renderComment, hcomment, Comment.render]
  rw [String.toList_ofList, mem_intercalate (by decide)]
  exact Words.exists_mem_words (by decide) hmem

/-! ## When the format is read -/

/-- Without indented comments, the last item of a key is that of the last entry for it. -/
theorem find?_assignment {lines : List HostLine} (h : ∀ line ∈ lines, ¬ line.IndentedComment)
    (key : String) :
    (lines.filterMap fun line => assignment line.render).find? (fun p => p.1 = key) =
      ((lines.filterMap HostLine.entry?).find? fun e => e.key = key).bind fun e =>
        assignment (HostLine.entry e).render := by
  induction lines with
  | nil => rfl
  | cons line lines ih =>
      obtain ⟨hline, hlines⟩ := List.forall_mem_cons.1 h
      have hrest := ih hlines
      cases line with
      | blank space => simpa [assignment_blank, HostLine.entry?] using hrest
      | comment indent c =>
          rcases assignment_comment indent c with ⟨-, hnone⟩ | ⟨hindent, -⟩
          · simpa [hnone, HostLine.entry?] using hrest
          · exact absurd hindent hline
      | entry e =>
          by_cases hkey : e.key = key
          · simp [assignment_entry, HostLine.entry?, hkey]
          · simpa [assignment_entry, HostLine.entry?, hkey] using hrest

theorem get?_text {file : HostsFile} (h : ∀ line ∈ file.lines, ¬ line.IndentedComment)
    (key : String) :
    (hostsLoader (mapfileOf file.text)).get? key =
      (lastEntry file.lines key).bind fun e => (assignment (HostLine.entry e).render).map Prod.snd := by
  have hreverse : ∀ line ∈ file.lines.reverse, ¬ line.IndentedComment :=
    fun line hline => h line (List.mem_reverse.1 hline)
  have hfind := find?_assignment hreverse key
  rw [List.filterMap_reverse, List.filterMap_reverse] at hfind
  rw [hostsLoader_text, Dict.get?_update, hfind, Dict.get?_empty, Option.or_none, Option.map_bind]
  rfl

theorem not_readsFormat {file : HostsFile} {line : HostLine} (hmem : line ∈ file.lines)
    (h : line.IndentedComment) : ¬ ReadsFormat file := by
  intro hreads
  cases line with
  | blank space => exact h
  | entry e => exact h
  | comment indent c =>
      rcases assignment_comment indent c with ⟨hindent, -⟩ | ⟨-, word, value, hsome⟩
      · exact h hindent
      · have hitem : (String.ofList ('#' :: word), value) ∈
            file.lines.filterMap fun line => assignment line.render :=
          List.mem_filterMap.2 ⟨_, hmem, hsome⟩
        have hkey : String.ofList ('#' :: word) ∈ (hostsLoader (mapfileOf file.text)).keys := by
          rw [hostsLoader_text, Dict.mem_keys_update]
          exact .inr (List.mem_map.2 ⟨_, hitem, rfl⟩)
        obtain ⟨loaded, hloaded⟩ := Dict.mem_keys_iff.1 hkey
        -- No address begins with the sign.
        obtain ⟨e, he, -⟩ := Option.map_eq_some_iff.1 ((hreads _).symm.trans hloaded)
        have haddress : e.key = String.ofList ('#' :: word) := by simpa using List.find?_some he
        have hchars : e.address.chars = '#' :: word := String.ofList_injective haddress
        exact (e.address.plain '#' (by simp [hchars])).2 rfl

/-- The format is read just when no comment is indented, and no comment follows the names in the last entry
of an address. -/
theorem reads_format_iff (file : HostsFile) :
    ReadsFormat file ↔
      (∀ line ∈ file.lines, ¬ line.IndentedComment) ∧
        ∀ key e, lastEntry file.lines key = some e → e.comment = none := by
  by_cases hindented : ∀ line ∈ file.lines, ¬ line.IndentedComment
  · rw [and_iff_right hindented]
    constructor
    · intro hreads key e he
      by_contra hcomment
      obtain ⟨value, hvalue, hsign⟩ := assignment_entry_of_comment hcomment
      have hloaded := get?_text hindented key
      rw [hreads key, he, Option.bind_some, hvalue] at hloaded
      have hEq : e.joinedNames = value := by simpa using hloaded
      exact not_mem_joinedNames e (hEq ▸ hsign)
    · intro hplain key
      rw [get?_text hindented key]
      cases he : lastEntry file.lines key with
      | none => rfl
      | some e => simp [assignment_entry_of_no_comment (hplain key e he)]
  · refine iff_of_false ?_ fun h => hindented h.1
    push Not at hindented
    obtain ⟨line, hmem, hline⟩ := hindented
    exact not_readsFormat hmem hline

namespace Example

def gap : Gap := ⟨⟨[' '], by simp [isspace, EndsLine]⟩, by simp⟩

/-- An entry with a comment after its name. -/
def webEntry : Entry :=
  { indent := ⟨[], by simp⟩
    address := ⟨"10.0.0.2".toList, by simp, by simp [isspace]⟩
    names := [(gap, ⟨"web".toList, by simp, by simp [isspace]⟩)]
    names_ne_nil := by simp
    trailing := gap.toBlank
    comment := some ⟨" main".toList, by simp [EndsLine]⟩ }

/-- An indented comment before the entry. -/
def commentedFile : HostsFile :=
  { text := " # 10.0.0.1 old\n10.0.0.2 web # main".toList
    lines := [.comment gap.toBlank ⟨" 10.0.0.1 old".toList, by simp [EndsLine]⟩, .entry webEntry]
    made := by decide +kernel }

end Example

theorem comments_read_as_names :
    (hostsLoader (mapfileOf Example.commentedFile.text)).entries =
        [("#", "10.0.0.1 old"), ("10.0.0.2", "web # main")] ∧
      ¬ ReadsFormat Example.commentedFile := by
  have hentries : (hostsLoader (mapfileOf Example.commentedFile.text)).entries =
      [("#", "10.0.0.1 old"), ("10.0.0.2", "web # main")] := by decide +kernel
  refine ⟨hentries, ?_⟩
  intro hreads
  have hkey := hreads "#"
  rw [Dict.get?, hentries] at hkey
  exact absurd hkey (by decide +kernel)

end Plugins

end PidtreeBcc
