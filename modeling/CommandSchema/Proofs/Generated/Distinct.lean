import CommandSchema.Proofs.Generated.Framed
import Mathlib.Data.List.Forall2

/-!
# The generated texts are distinct

The first lines of the five files tell them apart, whatever the schema is, unless a text of the
configuration breaks a line.

* `Heads`: what the first lines of a file start with.
* `nodup_texts`: no two files have the same text.
-/

namespace CommandSchema.Generated

open Layout Text

/-! ## First lines -/

/-- The first lines of a file start with these texts. -/
def Heads (starts : List String) (file : List Step) : Prop :=
  ∃ first rest, lines file = first ++ rest ∧
    List.Forall₂ (fun start line => start.toList <+: line) starts first

namespace Heads

variable {file : List Step} {start : String} {starts : List String}

theorem nil (file : List Step) : Heads [] file := ⟨[], lines file, rfl, .nil⟩

theorem blank (h : Heads starts file) : Heads ("" :: starts) (.blank :: file) := by
  obtain ⟨first, rest, hlines, hfirst⟩ := h
  refine ⟨[] :: first, rest, ?_, .cons (List.nil_prefix ..) hfirst⟩
  rw [lines, linesFrom_cons, List.cons_append, ← hlines]
  rfl

theorem line (h : Heads starts file)
    (hlast : (start.toList.getLast?.any fun c => !isBlank c) = true) {text : String} (rest : String)
    (htext : text = start ++ rest) (hn : '\n' ∉ text.toList) :
    Heads (start :: starts) (.line text :: file) := by
  obtain ⟨first, others, hlines, hfirst⟩ := h
  obtain ⟨c, hlast, hc⟩ := (Option.any_eq_true _ _).1 hlast
  rw [Bool.not_eq_true'] at hc
  subst htext
  refine ⟨(start.toList ++ trimEnd rest.toList) :: first, others, ?_,
    .cons (List.prefix_append ..) hfirst⟩
  rw [lines, linesFrom_cons, Step.lines, textLines_append hlast hc hn, lineAt_zero,
    List.cons_append, List.cons_append, ← hlines]
  rfl

theorem exists_line (h : Heads starts file) {i : Nat} (hi : starts[i]? = some start) :
    ∃ line, (lines file)[i]? = some line ∧ start.toList <+: line := by
  obtain ⟨first, rest, hlines, hfirst⟩ := h
  obtain ⟨hlt, rfl⟩ := List.getElem?_eq_some_iff.1 hi
  have hlt' : i < first.length := hfirst.length_eq ▸ hlt
  refine ⟨first[i], ?_, hfirst.get hlt hlt'⟩
  rw [hlines, List.getElem?_append_left hlt', List.getElem?_eq_getElem hlt']

theorem lines_ne_nil (h : Heads starts file) {i : Nat} (hi : starts[i]? = some start) :
    lines file ≠ [] := by
  obtain ⟨line, hline, -⟩ := h.exists_line hi
  intro hnil
  rw [hnil] at hline
  cases hline

/-- Files with a line that starts differently have different texts. -/
theorem render_ne {file' : List Step} {start' : String} {starts' : List String}
    (h : Heads starts file) (h' : Heads starts' file') (i : Nat) (hi : starts[i]? = some start)
    (hi' : starts'[i]? = some start') (hclash : Clash start.toList start'.toList) :
    render file ≠ render file' := by
  intro he
  obtain ⟨line, hline, hstart⟩ := h.exists_line hi
  obtain ⟨line', hline', hstart'⟩ := h'.exists_line hi'
  have hpieces := congrArg (fun text : String => pieces '\n' text.toList) he
  rw [pieces_render (h.lines_ne_nil hi), pieces_render (h'.lines_ne_nil hi')] at hpieces
  rw [List.append_cancel_right hpieces, hline'] at hline
  obtain rfl := Option.some.inj hline
  -- one of two starts of the same line would be the start of the other one
  obtain hle | hle := List.prefix_or_prefix_of_prefix hstart hstart'
  · exact hclash.1 hle
  · exact hclash.2 hle

end Heads

/-! ## The files -/

section

variable (s : Schema) {config : Config}

theorem heads_disclaimer {starts : List String} {file : List Step} (h : Heads starts file) :
    Heads ("//" :: "" :: starts) (disclaimer :: .blank :: file) :=
  h.blank.line (by decide) " This file is autogenerated. Do not modify." rfl (by decide)

theorem heads_guard {guard : String} (hguard : '\n' ∉ guard.toList) {starts : List String}
    {file : List Step} (h : Heads starts file) :
    Heads ("//" :: "" :: "#ifndef" :: "#define" :: "" :: starts)
      (disclaimer :: .blank :: .line ("#ifndef " ++ guard) :: .line ("#define " ++ guard) ::
        .blank :: file) := by
  have hifndef : "#ifndef " ++ guard = "#ifndef" ++ (" " ++ guard) := by
    rw [← String.append_assoc]
    rfl
  have hdefine : "#define " ++ guard = "#define" ++ (" " ++ guard) := by
    rw [← String.append_assoc]
    rfl
  exact heads_disclaimer <|
    (h.blank.line (by decide) _ hdefine (by simp [hguard])).line (by decide)
      _ hifndef (by simp [hguard])

theorem heads_inclusion (header : String) (file : List Step) :
    Heads ["#include \""] (inclusion header :: file) := by
  have hquote : quote header = "\"" ++ .ofList (quoteBody header.toList ++ ['\x22']) :=
    String.toList_inj.1 (by simp [toList_quote])
  refine (Heads.nil file).line (by decide) (.ofList (quoteBody header.toList ++ ['\x22'])) ?_
    (by simp [newline_not_mem_quote])
  rw [hquote, ← String.append_assoc]
  rfl

theorem heads_header (h : config.IsPlain) :
    Heads ["//", "", "#ifndef", "#define", "", "#include <"] (header s config) :=
  heads_guard h.parserGuard <|
    (Heads.nil _).line (by decide) "iostream>" rfl (by decide)

theorem heads_runHeader (h : config.IsPlain) :
    Heads ["//", "", "#ifndef", "#define", "", "#include \""] (runHeader s config) :=
  heads_guard h.runGuard (heads_inclusion _ _)

theorem heads_source (config : Config) : Heads ["//", "", "#include \""] (source s config) :=
  heads_disclaimer (heads_inclusion _ _)

theorem heads_bridge (config : Config) :
    Heads ["//", "", "#ifndef", "#error"] (bridge s config) := by
  rw [bridge]
  simp only [List.append_assoc, List.cons_append]
  exact heads_disclaimer <|
    ((Heads.nil _).line (by decide) " \"This file only works in Node builds\"" rfl
      (by decide)).line (by decide) " BUILD_NODEJS" rfl (by decide)

theorem heads_declarations (h : config.IsPlain) :
    Heads ["//", "", "import"] (declarations s config) := by
  rw [declarations_eq]
  simp only [List.cons_append, List.nil_append]
  exact heads_disclaimer <|
    (Heads.nil _).line (by decide) _ (importLine_eq config)
      (fillsLine_importLine config h.responseModule).1

/-- No two files have the same text. -/
theorem nodup_texts (h : config.IsPlain) : (Artifacts.ofSchema s config).texts.Nodup := by
  have hheader := heads_header s h
  have hrun := heads_runHeader s h
  have hsource := heads_source s config
  have hbridge := heads_bridge s config
  have hdeclarations := heads_declarations s h
  rw [Artifacts.texts, Artifacts.ofSchema]
  simp only [List.nodup_cons, List.mem_cons, List.not_mem_nil, not_or, or_false, not_false_iff,
    List.nodup_nil, and_true]
  exact ⟨⟨hheader.render_ne hrun 5 rfl rfl (by decide),
      hheader.render_ne hsource 2 rfl rfl (by decide),
      hheader.render_ne hbridge 3 rfl rfl (by decide),
      hheader.render_ne hdeclarations 2 rfl rfl (by decide)⟩,
    ⟨hrun.render_ne hsource 2 rfl rfl (by decide), hrun.render_ne hbridge 3 rfl rfl (by decide),
      hrun.render_ne hdeclarations 2 rfl rfl (by decide)⟩,
    ⟨hsource.render_ne hbridge 2 rfl rfl (by decide),
      hsource.render_ne hdeclarations 2 rfl rfl (by decide)⟩,
    hbridge.render_ne hdeclarations 2 rfl rfl (by decide)⟩

end

end CommandSchema.Generated
