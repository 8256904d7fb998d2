import Mathlib.Algebra.Ring.Nat
import Mathlib.Data.List.DropRight
import Mathlib.Data.String.Basic
import SmithyKotlin.Proofs.Text.Pieces
import SmithyKotlin.Writer.Basic

/-!
# Documentation comments

Comments of Kotlin nest: inside of one, each `/*` opens another and each `*/` closes one (`Kotlin.behindComment`).

* `Writer.afterComment_escapeCommentEnd`: the writer lets no `*/` of a documentation through, so a comment never
  ends before its last line.
* `Writer.behindComment_commentLines`: it lets `/*` through, and each of them leaves one comment open behind the
  last line (`openings`).
* `Writer.step_doc_nests`: so the comment ends there exactly when the documentation has none (`OpensComment`).

Quotes mean nothing inside of a comment, so texts and characters of Kotlin are left out.
-/

namespace SmithyKotlin

namespace Kotlin

/-! ## Comments that nest -/

/-- What follows a comment, read from a place where so many comments are open; nothing when the text ends before
they are closed. -/
def afterComment : Nat → List Char → Option (List Char)
  | 0, rest => some rest
  | _ + 1, [] => none
  | level + 1, '/' :: '*' :: rest => afterComment (level + 2) rest
  | level + 1, '*' :: '/' :: rest => afterComment level rest
  | level + 1, _ :: rest => afterComment (level + 1) rest

/-- What follows the comment that a text starts with, spaces aside. -/
def behindComment : List Char → Option (List Char)
  | ' ' :: rest => behindComment rest
  | '/' :: '*' :: rest => afterComment 1 rest
  | _ => none

variable {level : Nat} {c : Char} {early late rest : List Char}

theorem afterComment_zero (rest : List Char) : afterComment 0 rest = some rest := by
  cases rest <;> rfl

theorem afterComment_close (level : Nat) (rest : List Char) :
    afterComment (level + 1) ('*' :: '/' :: rest) = afterComment level rest := by
  cases level <;> rfl

/-- A character that starts neither `/*` nor `*/` is passed over. -/
theorem afterComment_cons (hopen : c = '/' → rest.head? ≠ some '*')
    (hclose : c = '*' → rest.head? ≠ some '/') :
    afterComment (level + 1) (c :: rest) = afterComment (level + 1) rest := by
  refine afterComment.eq_5 level c rest ?_ ?_
  · rintro others rfl rfl
    exact hopen rfl rfl
  · rintro others rfl rfl
    exact hclose rfl rfl

theorem afterComment_slash (h : rest.head? ≠ some '*') :
    afterComment (level + 1) ('/' :: rest) = afterComment (level + 1) rest :=
  afterComment_cons (fun _ => h) fun hstar => absurd hstar (by decide)

theorem afterComment_star (h : rest.head? ≠ some '/') :
    afterComment (level + 1) ('*' :: rest) = afterComment (level + 1) rest :=
  afterComment_cons (fun hslash => absurd hslash (by decide)) fun _ => h

theorem afterComment_newline (level : Nat) (rest : List Char) :
    afterComment (level + 1) ('\n' :: rest) = afterComment (level + 1) rest :=
  afterComment_cons (fun hslash => absurd hslash (by decide)) fun hstar => absurd hstar (by decide)

/-- Text in which no comment can start or end. -/
def HasNoDelimiter (text : List Char) : Prop := ∀ c ∈ text, c ≠ '/' ∧ c ≠ '*'

-- character by character, and not by trying all the characters there are
instance (text : List Char) : Decidable (HasNoDelimiter text) := List.decidableBAll _ text

theorem afterComment_append_of_plain {plain : List Char} (hplain : HasNoDelimiter plain)
    (rest : List Char) : afterComment (level + 1) (plain ++ rest) = afterComment (level + 1) rest := by
  induction plain with
  | nil => rfl
  | cons c others ih =>
    obtain ⟨⟨hslash, hstar⟩, hothers⟩ := List.forall_mem_cons.mp hplain
    rw [List.cons_append, afterComment_cons (fun h => absurd h hslash) (fun h => absurd h hstar), ih hothers]

/-- Where a comment ends is settled by the text up to there. -/
theorem afterComment_append (h : afterComment level early = some rest) :
    afterComment level (early ++ late) = some (rest ++ late) := by
  fun_induction afterComment level early with
  | case1 others =>
    cases h
    exact afterComment_zero _
  | case2 level => cases h
  | case3 level others ih => exact ih h
  | case4 level others ih =>
    exact (afterComment_close level _).trans (ih h)
  | case5 level c others hopen hclose ih =>
    cases others with
    | nil =>
      rw [afterComment] at h
      cases h
    | cons d others =>
      have hskip : afterComment (level + 1) (c :: (d :: others ++ late)) =
          afterComment (level + 1) (d :: others ++ late) := by
        refine afterComment_cons ?_ ?_
        · rintro rfl hd
          cases hd
          exact hopen others rfl rfl
        · rintro rfl hd
          cases hd
          exact hclose others rfl rfl
      exact hskip.trans (ih h)

theorem behindComment_append (h : behindComment early = some rest) :
    behindComment (early ++ late) = some (rest ++ late) := by
  fun_induction behindComment early with
  | case1 others ih => exact ih h
  | case2 others => exact afterComment_append h
  | case3 => cases h

example : behindComment "/* a /* b */ c */ d".toList = some " d".toList := by decide +kernel

/-- Where open comments reach to the end, nothing follows them. -/
theorem afterComment_nil {level : Nat} (h : afterComment level [] = some rest) : level = 0 ∧ rest = [] := by
  cases level with
  | zero => exact ⟨rfl, (Option.some.inj h).symm⟩
  | succ level => cases h

end Kotlin

namespace Writer

open Kotlin

/-! ## What documentation opens -/

/-- How many comments a text opens: one with each `/*` that has no star in front.  A slash behind a star is that of
a `*/`, and `starred` says whether one stands in front of the whole text. -/
def openings (starred : Bool) : List Char → Nat
  | [] => 0
  | c :: rest =>
    (if c = '/' ∧ rest.head? = some '*' ∧ starred = false then 1 else 0) + openings (c == '*') rest

variable {c : Char} {cs xs ys : List Char}

/-- Only a slash sees what is in front of it. -/
theorem openings_true (h : cs.head? ≠ some '/') : openings true cs = openings false cs := by
  cases cs with
  | nil => rfl
  | cons c rest =>
    have hslash : c ≠ '/' := fun hc => h (hc ▸ rfl)
    rw [openings, openings, if_neg (fun hand => hslash hand.1), if_neg (fun hand => hslash hand.1)]

theorem openings_cons (hslash : c ≠ '/') (hstar : c ≠ '*') (starred : Bool) :
    openings starred (c :: cs) = openings false cs := by
  rw [openings, if_neg (fun hand => hslash hand.1), beq_eq_false_iff_ne.mpr hstar, Nat.zero_add]

/-- Other characters keep what is on both sides of them apart. -/
theorem openings_append_cons (hslash : c ≠ '/') (hstar : c ≠ '*') (starred : Bool) :
    openings starred (xs ++ c :: ys) = openings starred xs + openings false ys := by
  induction xs generalizing starred with
  | nil => exact (openings_cons hslash hstar starred).trans (Nat.zero_add _).symm
  | cons x rest ih =>
    have hhead : (rest ++ c :: ys).head? = some '*' ↔ rest.head? = some '*' := by
      cases rest with
      | nil => simp [hstar]
      | cons => rfl
    rw [List.cons_append, openings, openings, ih, Nat.add_assoc]
    simp only [hhead]

/-! ## Lines -/

theorem blank_ne (h : Text.isBlank c = true) : c ≠ '/' ∧ c ≠ '*' := by
  constructor
  · rintro rfl
    revert h
    decide
  · rintro rfl
    revert h
    decide

theorem openings_dropWhile (cs : List Char) :
    openings false (cs.dropWhile Text.isBlank) = openings false cs := by
  induction cs with
  | nil => rfl
  | cons c rest ih =>
    rw [List.dropWhile_cons]
    split
    · rename_i hblank
      obtain ⟨hslash, hstar⟩ := blank_ne hblank
      rw [ih, openings_cons hslash hstar]
    · rfl

theorem openings_dropBlanksEnd (cs : List Char) :
    openings false (Text.dropBlanksEnd cs) = openings false cs := by
  show openings false (cs.rdropWhile Text.isBlank) = openings false cs
  induction cs using List.reverseRecOn with
  | nil => rfl
  | append_singleton xs c ih =>
    rw [List.rdropWhile_concat]
    split
    · rename_i hblank
      obtain ⟨hslash, hstar⟩ := blank_ne hblank
      rw [ih, openings_append_cons hslash hstar]
      rfl
    · rfl

theorem openings_trim (text : String) :
    openings false (Text.trim text).toList = openings false text.toList := by
  rw [Text.trim, String.toList_ofList, openings_dropBlanksEnd, openings_dropWhile]

theorem openings_trimEnd (text : String) :
    openings false (Text.trimEnd text).toList = openings false text.toList := by
  rw [Text.trimEnd, String.toList_ofList, openings_dropBlanksEnd]

/-- The lines of a text open together what the text opens. -/
theorem sum_openings_pieces (cs : List Char) :
    ((Text.pieces (· == '\n') cs).map (openings false)).sum = openings false cs := by
  induction hlength : cs.length using Nat.strong_induction_on generalizing cs with
  | h length ih =>
    cases hcut : Text.cutList '\n' cs with
    | none =>
      have hnone := Text.cutList_eq_none_iff.mp hcut
      rw [Text.pieces_eq_singleton (Text.beq_eq_false_of_not_mem hnone)]
      exact Nat.add_zero _
    | some parts =>
      obtain ⟨first, second⟩ := parts
      obtain ⟨rfl, hfirst⟩ := Text.cutList_eq_some_iff.mp hcut
      have hsep := Text.beq_eq_false_of_not_mem hfirst
      have hshorter : second.length < length := by
        rw [← hlength, List.length_append, List.length_cons]
        omega
      have hpieces : Text.pieces (· == '\n') (first ++ '\n' :: second) =
          first :: Text.pieces (· == '\n') second := by
        rw [Text.pieces_append_cons rfl, Text.pieces_eq_singleton hsep, List.singleton_append]
      rw [hpieces, List.map_cons, List.sum_cons, ih _ hshorter second rfl,
        openings_append_cons (by decide) (by decide)]

theorem sum_openings_split (text : String) :
    ((Text.split '\n' text).map fun line => openings false line.toList).sum =
      openings false text.toList := by
  have hlines : (Text.split '\n' text).map (fun line => openings false line.toList) =
      (Text.pieces (· == '\n') text.toList).map (openings false) := by
    rw [Text.split, List.map_map]
    exact List.map_congr_left fun piece _ => by rw [Function.comp_apply, String.toList_ofList]
  rw [hlines, sum_openings_pieces]

/-! ## Escaped lines -/

theorem escaped_end (rest : List Char) :
    "*&#47;".toList ++ rest = '*' :: '&' :: '#' :: '4' :: '7' :: ';' :: rest := rfl

theorem head?_escapeCommentEnd (cs : List Char) : (escapeCommentEnd cs).head? = cs.head? := by
  fun_cases escapeCommentEnd cs <;> rfl

/-- No `*/` is left in an escaped text. -/
theorem head?_of_escapeCommentEnd (h : escapeCommentEnd cs = '*' :: xs) : xs.head? ≠ some '/' := by
  revert h
  fun_cases escapeCommentEnd cs with
  | case1 rest =>
    intro h
    rw [escaped_end, List.cons.injEq] at h
    rw [← h.2]
    simp
  | case2 c rest hpair =>
    intro h
    obtain ⟨rfl, rfl⟩ := List.cons.inj h
    rw [head?_escapeCommentEnd]
    intro hslash
    obtain ⟨others, rfl⟩ := List.head?_eq_some_iff.mp hslash
    exact hpair others rfl rfl
  | case3 =>
    intro h
    cases h

/-- The first character of a line is that of the line before it was escaped. -/
theorem head?_escapeCommentEnd_append (cs rest : List Char) (hc : c ≠ '\n') :
    (escapeCommentEnd cs ++ '\n' :: rest).head? = some c ↔ cs.head? = some c := by
  rw [List.head?_append, head?_escapeCommentEnd]
  cases cs with
  | nil => simp [hc.symm]
  | cons => simp

theorem openings_pair (cs : List Char) : openings false ('*' :: '/' :: cs) = openings false cs := by
  simp [openings]

theorem openings_slash (cs : List Char) :
    openings false ('/' :: cs) = (if cs.head? = some '*' then 1 else 0) + openings false cs := by
  simp [openings]

theorem openings_other (hslash : c ≠ '/') (hstar : c = '*' → cs.head? ≠ some '/') :
    openings false (c :: cs) = openings false cs := by
  by_cases hc : c = '*'
  · subst hc
    rw [openings, if_neg (fun hand => hslash hand.1), Nat.zero_add]
    exact openings_true (hstar rfl)
  · exact openings_cons hslash hc false

/-- An escaped line closes no comment, and opens as many as the line has openings. -/
theorem afterComment_escapeCommentEnd (level : Nat) (cs rest : List Char) :
    afterComment (level + 1) (escapeCommentEnd cs ++ '\n' :: rest) =
      afterComment (level + openings false cs + 1) rest := by
  fun_induction escapeCommentEnd cs generalizing level with
  | case1 others ih =>
    have hplain : HasNoDelimiter ['&', '#', '4', '7', ';'] := by decide
    have hstar : (['&', '#', '4', '7', ';'] ++ (escapeCommentEnd others ++ '\n' :: rest)).head? ≠ some '/' := by
      simp
    show afterComment (level + 1)
      ('*' :: (['&', '#', '4', '7', ';'] ++ (escapeCommentEnd others ++ '\n' :: rest))) = _
    rw [afterComment_star hstar, afterComment_append_of_plain hplain, ih, openings_pair]
  | case2 c others hpair ih =>
    have hclose : c = '*' → others.head? ≠ some '/' := by
      rintro rfl hslash
      obtain ⟨tail, rfl⟩ := List.head?_eq_some_iff.mp hslash
      exact hpair tail rfl rfl
    by_cases hslash : c = '/'
    · subst hslash
      rw [openings_slash]
      by_cases hstar : others.head? = some '*'
      · -- both characters are used up, and what follows the star is no slash
        obtain ⟨tail, htail⟩ := List.head?_eq_some_iff.mp
          ((head?_escapeCommentEnd others).trans hstar)
        have hskip : afterComment (level + 2) ('*' :: (tail ++ '\n' :: rest)) =
            afterComment (level + 2) (tail ++ '\n' :: rest) := by
          refine afterComment_star fun hhead => ?_
          cases tail with
          | nil => cases hhead
          | cons d _ => exact head?_of_escapeCommentEnd htail hhead
        have hline := ih (level + 1)
        rw [htail, List.cons_append, hskip] at hline
        rw [htail, if_pos hstar, ← Nat.add_assoc]
        exact hline
      · have hopen : (escapeCommentEnd others ++ '\n' :: rest).head? ≠ some '*' := fun hhead =>
          hstar ((head?_escapeCommentEnd_append others rest (by decide)).mp hhead)
        rw [List.cons_append, afterComment_slash hopen, ih, if_neg hstar, Nat.zero_add]
    · have hclosed : c = '*' → (escapeCommentEnd others ++ '\n' :: rest).head? ≠ some '/' := fun hc hhead =>
        hclose hc ((head?_escapeCommentEnd_append others rest (by decide)).mp hhead)
      rw [List.cons_append, afterComment_cons (fun hc => absurd hc hslash) hclosed, ih,
        openings_other hslash hclose]
  | case3 => exact afterComment_newline level rest

/-! ## Comments -/

/-- The text of lines. -/
def source (lines : List String) : List Char := ("\n".intercalate lines).toList

theorem source_singleton (line : String) : source [line] = line.toList := by
  simp [source]

theorem source_cons {line : String} {rest : List String} (hrest : rest ≠ []) :
    source (line :: rest) = line.toList ++ '\n' :: source rest := by
  cases rest with
  | nil => exact absurd rfl hrest
  | cons => simp [source]

/-- Indentation is passed over. -/
theorem afterComment_indent (level depth : Nat) {line : String} (hline : line ≠ "") (rest : List Char) :
    afterComment (level + 1) ((indent depth line).toList ++ rest) =
      afterComment (level + 1) (line.toList ++ rest) := by
  have hspaces : HasNoDelimiter (List.replicate (4 * depth) ' ') := by
    intro c hc
    rw [List.eq_of_mem_replicate hc]
    decide
  rw [indent, String.isEmpty_eq_false_iff.mpr hline, if_neg Bool.false_ne_true, String.toList_append,
    String.toList_ofList, List.append_assoc, afterComment_append_of_plain hspaces]

/-- The star that a line starts with closes nothing, for a blank stands behind it. -/
theorem afterComment_mark (level : Nat) {blank : Char} (hblank : blank ≠ '/') (rest : List Char) :
    afterComment (level + 1) (" *".toList ++ blank :: rest) = afterComment (level + 1) (blank :: rest) := by
  have hspace : HasNoDelimiter [' '] := by decide
  have hhead : (blank :: rest).head? ≠ some '/' := fun h => hblank (Option.some.inj h)
  show afterComment (level + 1) ([' '] ++ '*' :: blank :: rest) = _
  rw [afterComment_append_of_plain hspace, afterComment_star hhead]

/-- A line of the documentation closes no comment, and opens as many as the line has openings. -/
theorem afterComment_commentLine (level depth : Nat) (line : String) (rest : List Char) :
    afterComment (level + 1) ((indent depth (commentLine line)).toList ++ '\n' :: rest) =
      afterComment (level + openings false line.toList + 1) rest := by
  rw [← openings_trimEnd line, ← afterComment_escapeCommentEnd, commentLine]
  generalize escapeCommentEnd (Text.trimEnd line).toList = escaped
  by_cases hempty : escaped = []
  · subst hempty
    show afterComment (level + 1) ((indent depth " *").toList ++ '\n' :: rest) = _
    rw [afterComment_indent level depth (by decide), afterComment_mark level (by decide)]
    rfl
  · have hspace : HasNoDelimiter [' '] := by decide
    have htext : (String.ofList escaped).isEmpty = false := by
      rw [String.isEmpty_eq_false_iff]
      exact fun h => hempty (by simpa using congrArg String.toList h)
    have hline : " * " ++ String.ofList escaped ≠ "" := by
      intro h
      have := congrArg String.toList h
      simp at this
    rw [htext, if_neg Bool.false_ne_true, afterComment_indent level depth hline, String.toList_append,
      @String.toList_ofList escaped]
    show afterComment (level + 1) (" *".toList ++ ' ' :: (escaped ++ '\n' :: rest)) = _
    rw [afterComment_mark level (by decide)]
    exact afterComment_append_of_plain hspace _

/-- The last line closes one comment. -/
theorem afterComment_lastLine (level depth : Nat) (rest : List Char) :
    afterComment (level + 1) ((indent depth " */").toList ++ rest) = afterComment level rest := by
  have hspace : HasNoDelimiter [' '] := by decide
  rw [afterComment_indent level depth (by decide)]
  show afterComment (level + 1) ([' '] ++ '*' :: '/' :: rest) = _
  rw [afterComment_append_of_plain hspace, afterComment_close]

/-- Between its first and its last line a comment only opens others. -/
theorem afterComment_lines (level depth : Nat) (lines : List String) (rest : List Char) :
    afterComment (level + 1)
        (source ((lines.map commentLine ++ [" */"]).map (indent depth)) ++ rest) =
      afterComment (level + (lines.map fun line => openings false line.toList).sum) rest := by
  induction lines generalizing level with
  | nil =>
    show afterComment (level + 1) (source [indent depth " */"] ++ rest) = _
    rw [source_singleton, afterComment_lastLine]
    rfl
  | cons line others ih =>
    have hrest : (others.map commentLine ++ [" */"]).map (indent depth) ≠ [] := by simp
    rw [List.map_cons, List.cons_append, List.map_cons, source_cons hrest, List.append_assoc, List.cons_append,
      afterComment_commentLine, ih, List.map_cons, List.sum_cons, Nat.add_assoc]

/-- The lines of a documentation, the blank ones at its ends aside. -/
def documentationLines (text : String) : List String :=
  if (Text.trim text).isEmpty then [] else Text.split '\n' (Text.trim text)

theorem commentLines_eq (text : String) :
    commentLines text = "/**" :: ((documentationLines text).map commentLine ++ [" */"]) := rfl

theorem sum_openings_documentationLines (text : String) :
    ((documentationLines text).map fun line => openings false line.toList).sum =
      openings false text.toList := by
  rw [← openings_trim, documentationLines]
  split
  · rename_i hempty
    rw [String.isEmpty_iff.mp hempty]
    rfl
  · exact sum_openings_split _

theorem behindComment_indent (depth : Nat) (rest : List Char) :
    behindComment ((indent depth "/**").toList ++ '\n' :: rest) = afterComment 1 rest := by
  have hspaces (count : Nat) (text : List Char) :
      behindComment (List.replicate count ' ' ++ text) = behindComment text := by
    induction count with
    | zero => rfl
    | succ count ih => exact ih
  have hstart : (indent depth "/**").toList = List.replicate (4 * depth) ' ' ++ ['/', '*', '*'] := by
    rw [indent, if_neg (by decide), String.toList_append, String.toList_ofList]
    rfl
  rw [hstart, List.append_assoc, hspaces]
  have hhead : ('\n' :: rest).head? ≠ some '/' := by simp
  show afterComment 1 ('*' :: '\n' :: rest) = _
  rw [afterComment_star hhead, afterComment_newline]

/-- What is open behind the last line of a comment is what the documentation opens. -/
theorem behindComment_commentLines (depth : Nat) (text : String) (code : List Char) :
    behindComment (source ((commentLines text).map (indent depth)) ++ code) =
      afterComment (openings false text.toList) code := by
  have hrest : ((documentationLines text).map commentLine ++ [" */"]).map (indent depth) ≠ [] := by simp
  rw [commentLines_eq, List.map_cons, source_cons hrest, List.append_assoc, List.cons_append,
    behindComment_indent, afterComment_lines 0, sum_openings_documentationLines, Nat.zero_add]

/-! ## Documentation -/

/-- Documentation opens a comment: it has a `/*` without a star in front. -/
def OpensComment (text : String) : Prop :=
  ∃ before behind, text.toList = before ++ '/' :: '*' :: behind ∧ before.getLast? ≠ some '*'

theorem openings_pos_iff (starred : Bool) (cs : List Char) :
    0 < openings starred cs ↔ ∃ before behind, cs = before ++ '/' :: '*' :: behind ∧
      (before.getLast?.map (· == '*')).getD starred = false := by
  have hlast (starred : Bool) (c : Char) (before : List Char) :
      ((c :: before).getLast?.map (· == '*')).getD starred =
        (before.getLast?.map (· == '*')).getD (c == '*') := by
    rw [List.getLast?_cons]
    cases before.getLast? <;> rfl
  induction cs generalizing starred with
  | nil => simp [openings]
  | cons c rest ih =>
    have ih := ih (c == '*')
    rw [openings]
    constructor
    · intro hpos
      by_cases hhere : c = '/' ∧ rest.head? = some '*' ∧ starred = false
      · obtain ⟨rfl, hstar, hstarred⟩ := hhere
        obtain ⟨behind, rfl⟩ := List.head?_eq_some_iff.mp hstar
        exact ⟨[], behind, rfl, hstarred⟩
      · rw [if_neg hhere, Nat.zero_add] at hpos
        obtain ⟨before, behind, rfl, hbefore⟩ := ih.mp hpos
        exact ⟨c :: before, behind, rfl, (hlast starred c before).trans hbefore⟩
    · rintro ⟨before, behind, hsplit, hbefore⟩
      cases before with
      | nil =>
        obtain ⟨rfl, rfl⟩ := List.cons.inj hsplit
        rw [if_pos ⟨rfl, rfl, hbefore⟩]
        omega
      | cons d before =>
        obtain ⟨rfl, rfl⟩ := List.cons.inj hsplit
        have := ih.mpr ⟨before, behind, rfl, (hlast starred c before).symm.trans hbefore⟩
        omega

theorem opensComment_iff {text : String} : OpensComment text ↔ 0 < openings false text.toList := by
  rw [openings_pos_iff, OpensComment]
  refine exists_congr fun before => exists_congr fun behind => and_congr_right fun _ => ?_
  cases before.getLast? <;> simp

/-- The lines that documentation adds, as comments of Kotlin go: the first one opens a comment, nothing before the
last one closes it, and behind the last one so many comments are open as the documentation opens. -/
structure Nests (depth : Nat) (text : String) (lines : List String) : Prop where
  first : lines.head? = some (indent depth "/**")
  last : lines.getLast? = some (indent depth " */")
  early : ∀ before behind, source lines = before ++ behind → behind ≠ [] → behindComment before = none
  level : ∀ code, behindComment (source lines ++ code) = afterComment (openings false text.toList) code
  closed : (∀ code, behindComment (source lines ++ code) = some code) ↔ ¬ OpensComment text

theorem nests_commentLines (depth : Nat) (text : String) :
    Nests depth text ((commentLines text).map (indent depth)) where
  first := by rw [commentLines_eq, List.map_cons, List.head?_cons]
  last := by
    rw [commentLines_eq, ← List.cons_append, List.map_append, List.map_singleton, List.getLast?_concat]
  early := by
    intro before behind hsource hbehind
    cases hbefore : behindComment before with
    | none => rfl
    | some rest =>
      -- a comment that ends in there leaves text behind at the end of the last line as well
      have hafter : behindComment (before ++ behind) = some (rest ++ behind) := behindComment_append hbefore
      rw [← hsource, ← List.append_nil (source _), behindComment_commentLines] at hafter
      exact absurd (List.append_eq_nil_iff.mp (afterComment_nil hafter).2).2 hbehind
  level := behindComment_commentLines depth text
  closed := by
    rw [opensComment_iff, Nat.pos_iff_ne_zero, not_not]
    constructor
    · intro hclosed
      exact (afterComment_nil ((behindComment_commentLines depth text []).symm.trans (hclosed []))).1
    · intro hnone code
      rw [behindComment_commentLines, hnone, afterComment_zero]

/-- No documentation ends its comment early; it swallows what follows exactly when it opens a comment. -/
theorem step_doc_nests (writer : Writer) (text : String) :
    ∃ lines, (writer.step (.doc text)).lines = writer.lines ++ lines ∧ Nests writer.depth text lines :=
  ⟨_, rfl, nests_commentLines writer.depth text⟩

/-- The pattern of a directory opens a comment that is never closed, and the class behind it is gone. -/
theorem not_closed_pattern :
    let writer : Writer := { package := "com.example" }
    let lines := (writer.step (.doc "Files below /* are kept")).lines
    lines = ["/**", " * Files below /* are kept", " */"] ∧
      behindComment (source lines ++ "\npublic class Files".toList) = none := by
  decide +kernel

end Writer

end SmithyKotlin
