import CommandSchema.Generated.Artifacts
import CommandSchema.Proofs.Layout.View
import CommandSchema.Proofs.Text.Lines

/-!
# The frames of the generated files

Every generated file is a body that depends on the schema alone, in a frame that depends on the
configuration alone. The frame consists of comments, inclusions, namespaces and imports, unless a
text of the configuration breaks a line.

* `headerBody`, `runHeaderBody`, `sourceBody`, `bridgeBody`, `declarationsBody`: the bodies.
* `Config.IsPlain`: no text of the configuration that is written as it is breaks a line.
* `header_eq`, `source_eq`: the header and the source of the parsers in their frames.
* `Framed`: a file with its body; `Framed.part`: the text of the body is a part of the text of the
  file; `Framed.ofText`: views that pass over the lines of frames take the same from both.
* `ReadAs`: what a reading gives for a body and for its file.
* `Framed.linesAfter`, `Framed.namesAfter`, `Framed.innerLinesAfter`, `Framed.blocksAfter`: so do the
  views of what follows an introduction.
-/

namespace CommandSchema

/-- The texts that are written as they are fit on a line. All others are written as literals. -/
structure Config.IsPlain (config : Config) : Prop where
  nameSpace : '\n' ∉ config.nameSpace.toList
  parserGuard : '\n' ∉ config.parserGuard.toList
  runGuard : '\n' ∉ config.runGuard.toList
  responseModule : '\n' ∉ config.responseModule.toList

/-- The texts that stand where a user chooses none break no line. -/
theorem Config.isPlain_default (foreignTypes : List String) :
    Config.IsPlain { foreignTypes := foreignTypes } where
  nameSpace := by
    show '\n' ∉ "ticket::command".toList
    decide
  parserGuard := by
    show '\n' ∉ "TICKET_PARSER_H_".toList
    decide
  runGuard := by
    show '\n' ∉ "TICKET_RUN_H_".toList
    decide
  responseModule := by
    show '\n' ∉ "./response".toList
    decide

namespace Generated

open Layout Text

/-! ## Bodies -/

/-- The types and the parsers that the header declares. -/
def headerBody (s : Schema) : List Step :=
  [.line "enum SortType \x7b kTime, kCost \x7d;", .blank] ++
    s.commands.flatMap (fun c => record c ++ [.blank]) ++ union s ++ [.blank] ++ parserDeclarations

/-- The handlers. -/
def runHeaderBody (s : Schema) : List Step := handlerComment ++ s.commands.map handler

/-- The two parsers. -/
def sourceBody (s : Schema) : List Step := lineParser ++ [.blank] ++ argvParser s

/-- The functions of the bridge. -/
def bridgeBody (s : Schema) : List Step :=
  bridgePrelude ++ [.blank] ++ s.commands.flatMap (fun c => scriptFunction c ++ [.blank]) ++
    [.line "#undef CPP_STR", .line "#undef CPP_INT", .line "#undef CPP_BOOL", .blank] ++
    registrations s ++ [.blank, .line "NODE_API_MODULE(NODE_GYP_MODULE_NAME, init)"]

/-- The types and the functions that are declared for scripts. -/
def declarationsBody (s : Schema) : List Step :=
  typeAliases ++ [.blank] ++
    (s.commands.filter fun c => !c.fields.isEmpty).flatMap
      (fun c => optionsInterface c ++ [.blank]) ++
    s.commands.map fun c => .line c.signature

/-! ## Frames -/

/-- What the lines of frames start with. -/
def frameStarts : List String := ["//", "#", "namespace", "\x7d //", "import"]

theorem head_frameStarts : ∀ start ∈ frameStarts, start.toList.head?.any (· ≠ ' ') = true := by
  decide

/-- A file is a body with a frame around it, whose lines are those of frames if the configuration
is plain. -/
def Framed (config : Config) (body file : List Step) : Prop :=
  ∃ opening ending, file = opening ++ body ++ ending ∧ levelAfter 0 opening = 0 ∧
    (config.IsPlain → Starts frameStarts opening ∧ Starts frameStarts ending)

/-- A reading of texts gives this for a body and, if the configuration is plain, for the file around
it. -/
structure ReadAs {α : Type} (config : Config) (body file : List Step) (read : String → α)
    (value : α) : Prop where
  body : read (render body) = value
  file : config.IsPlain → read (render file) = value

theorem ReadAs.map {α β : Type} {config : Config} {body file : List Step} {read : String → α}
    {value : α} (h : ReadAs config body file read value) (f : α → β) {result : β}
    (hf : f value = result) : ReadAs config body file (fun text => f (read text)) result where
  body := by rw [h.body, hf]
  file hconfig := by rw [h.file hconfig, hf]

namespace Framed

variable {config : Config} {body file : List Step} {α : Type} {v : View α} {found : List α}

/-- Whatever the configuration is, the text of a body is a part of the text of its file. -/
theorem part (h : Framed config body file) (hlevel : levelAfter 0 body = 0)
    (hne : lines body ≠ []) : ∃ front back, render file = front ++ render body ++ back := by
  obtain ⟨opening, ending, rfl, hopening, -⟩ := h
  exact exists_render_append hopening hlevel hne

/-- What a view takes from the description of a body is what it takes from the texts of the body
and of the file. -/
theorem ofText (h : Framed config body file) (hv : v.Ignores frameStarts)
    (hshows : Shows v body found) : ReadAs config body file v.ofText found := by
  obtain ⟨opening, ending, rfl, -, hframe⟩ := h
  refine ⟨hshows.render, fun hconfig => ?_⟩
  obtain ⟨hopening, hending⟩ := hframe hconfig
  have hfile := ((hopening.shows hv head_frameStarts).append hshows).append
    (hending.shows hv head_frameStarts)
  rw [List.nil_append, List.append_nil] at hfile
  exact hfile.render

section Introductions

variable {introductions : List String} (h : Framed config body file)
  (hclash : ∀ start ∈ frameStarts, ∀ i ∈ introductions, Clash i.toList start.toList)

include h hclash

theorem linesAfter {hnil : after? introductions [] = none} {found : List String}
    (hshows : Shows (.after introductions hnil) body found) :
    ReadAs config body file (linesAfter introductions) found :=
  h.ofText (View.ignores_after hclash) hshows

theorem namesAfter {hnil : after? introductions [] = none} {found names : List String}
    (hshows : Shows (.after introductions hnil) body found)
    (hnames : found.map leadingName = names) :
    ReadAs config body file (namesAfter introductions) names :=
  (h.linesAfter hclash hshows).map (List.map leadingName) hnames

theorem innerLinesAfter {hnil : after? introductions (dropIndent []) = none} {found : List String}
    (hshows : Shows (.innerAfter introductions hnil) body found) :
    ReadAs config body file (innerLinesAfter introductions) found :=
  h.ofText (View.ignores_innerAfter head_frameStarts hclash) hshows

theorem blocksAfter {hnil : after? introductions [] = none}
    {found : List (String × List (List Char))}
    (hshows : Shows (.blocksAfter introductions hnil) body found) :
    ReadAs config body file (blocksAfter introductions) (found.map unindentBlock) :=
  (h.ofText (View.ignores_blocksAfter hclash) hshows).map (List.map unindentBlock) rfl

end Introductions

end Framed

/-! ## The lines of frames -/

theorem starts_directive {text : String} (h : '\n' ∉ text.toList) :
    Starts frameStarts [.line ("#" ++ text)] :=
  starts_line "#" text (c := '#') (by simp [frameStarts]) rfl (by decide) rfl (by simpa using h)

theorem starts_disclaimer : Starts frameStarts [disclaimer] := ⟨rfl, by decide⟩

theorem starts_inclusion (header : String) : Starts frameStarts [inclusion header] := by
  have hdirective : inclusion header = .line ("#" ++ ("include " ++ quote header)) := by
    rw [inclusion, ← String.append_assoc]
    rfl
  rw [hdirective]
  exact starts_directive (by simp [newline_not_mem_quote])

theorem starts_inclusions (headers : List String) :
    Starts frameStarts (headers.map inclusion) := by
  rw [List.map_eq_flatMap]
  exact Starts.flatMap fun header _ => starts_inclusion header

theorem starts_namespaceStart {name : String} (h : '\n' ∉ name.toList) :
    Starts frameStarts [namespaceStart name] := by
  refine starts_line "namespace" (" " ++ name ++ " \x7b") (c := 'e')
    (by simp [frameStarts]) rfl (by decide) ?_ (by simp [h])
  rw [← String.append_assoc, ← String.append_assoc]
  rfl

theorem starts_namespaceEnd {name : String} (h : '\n' ∉ name.toList) :
    Starts frameStarts [namespaceEnd name] := by
  refine starts_line "\x7d //" (" namespace " ++ name) (c := '/')
    (by simp [frameStarts]) rfl (by decide) ?_ (by simp [h])
  rw [← String.append_assoc]
  rfl

/-- The lines before the text of a header that is read only once. -/
theorem starts_guard {guard : String} (h : '\n' ∉ guard.toList) :
    Starts frameStarts
      [disclaimer, .blank, .line ("#ifndef " ++ guard), .line ("#define " ++ guard), .blank] := by
  have hifndef : "#ifndef " ++ guard = "#" ++ ("ifndef " ++ guard) := by
    rw [← String.append_assoc]
    rfl
  have hdefine : "#define " ++ guard = "#" ++ ("define " ++ guard) := by
    rw [← String.append_assoc]
    rfl
  rw [hifndef, hdefine]
  exact starts_disclaimer.append <| Starts.blank.append <|
    (starts_directive (by simp [h])).append <| (starts_directive (by simp [h])).append Starts.blank

/-- The lines after it. -/
theorem starts_guardEnd {guard name : String} (h : '\n' ∉ guard.toList) (hn : '\n' ∉ name.toList) :
    Starts frameStarts [.blank, namespaceEnd name, .blank, .line ("#endif // " ++ guard)] := by
  have hendif : "#endif // " ++ guard = "#" ++ ("endif // " ++ guard) := by
    rw [← String.append_assoc]
    rfl
  rw [hendif]
  exact Starts.blank.append <| (starts_namespaceEnd hn).append <|
    Starts.blank.append (starts_directive (by simp [h]))

/-! ## The files -/

section Files

variable (s : Schema) (config : Config)

theorem levelAfter_inclusions (headers : List String) :
    levelAfter 0 (headers.map inclusion) = 0 := by
  rw [List.map_eq_flatMap]
  exact levelAfter_flatMap fun _ _ => rfl

/-- What stands before the body of the header. -/
def headerOpening : List Step :=
  [disclaimer, .blank, .line ("#ifndef " ++ config.parserGuard),
    .line ("#define " ++ config.parserGuard), .blank] ++
    ([.line "#include <iostream>", .blank] ++
      ((headerInclusions ++ config.includes).map inclusion ++
        ([.blank, .line "/// Classes and parsers for commands."] ++
          ([namespaceStart config.nameSpace] ++ [.blank]))))

/-- What stands after it. -/
def headerEnding : List Step :=
  [.blank, namespaceEnd config.nameSpace, .blank, .line ("#endif // " ++ config.parserGuard)]

theorem header_eq : header s config = headerOpening config ++ headerBody s ++ headerEnding config := by
  simp only [header, guarded, headerOpening, headerBody, headerEnding, List.append_assoc,
    List.cons_append, List.nil_append]

theorem levelAfter_headerOpening : levelAfter 0 (headerOpening config) = 0 := by
  have hlevel := levelAfter_inclusions (headerInclusions ++ config.includes)
  rw [headerOpening, levelAfter_append, levelAfter_append, levelAfter_append]
  show levelAfter (levelAfter 0 _) _ = 0
  rw [hlevel]
  rfl

theorem framed_header : Framed config (headerBody s) (header s config) := by
  refine ⟨headerOpening config, headerEnding config, header_eq s config,
    levelAfter_headerOpening config, fun h => ⟨?_, starts_guardEnd h.parserGuard h.nameSpace⟩⟩
  have hiostream : Starts frameStarts [.line "#include <iostream>", .blank] :=
    ⟨rfl, by decide⟩
  have hcomment : Starts frameStarts [.blank, .line "/// Classes and parsers for commands."] :=
    ⟨rfl, by decide⟩
  exact (starts_guard h.parserGuard).append <| hiostream.append <|
    (starts_inclusions _).append <| hcomment.append <|
      (starts_namespaceStart h.nameSpace).append Starts.blank

theorem framed_runHeader : Framed config (runHeaderBody s) (runHeader s config) := by
  refine ⟨[disclaimer, .blank, .line ("#ifndef " ++ config.runGuard),
      .line ("#define " ++ config.runGuard), .blank] ++
      ([inclusion config.files.header] ++ ([inclusion "result.h", inclusion "response.h", .blank] ++
        ([namespaceStart config.nameSpace] ++ [.blank]))),
    [.blank, namespaceEnd config.nameSpace, .blank, .line ("#endif // " ++ config.runGuard)],
    ?_, rfl, fun h => ⟨?_, starts_guardEnd h.runGuard h.nameSpace⟩⟩
  · simp only [runHeader, guarded, runHeaderBody, List.append_assoc, List.cons_append,
      List.nil_append]
  · have hinclusions : Starts frameStarts [inclusion "result.h", inclusion "response.h", .blank] :=
      ⟨rfl, by decide⟩
    exact (starts_guard h.runGuard).append <| (starts_inclusion _).append <| hinclusions.append <|
      (starts_namespaceStart h.nameSpace).append Starts.blank

/-- What stands before the body of the source of the parsers. -/
def sourceOpening : List Step :=
  [disclaimer, .blank] ++ ([inclusion config.files.header] ++
    ([.blank, inclusion "utility.h", .blank] ++ ([namespaceStart config.nameSpace] ++ [.blank])))

/-- What stands after it. -/
def sourceEnding : List Step := [.blank] ++ [namespaceEnd config.nameSpace]

theorem source_eq : source s config = sourceOpening config ++ sourceBody s ++ sourceEnding config := by
  simp only [source, sourceOpening, sourceBody, sourceEnding, List.append_assoc, List.cons_append,
    List.nil_append]

theorem framed_source : Framed config (sourceBody s) (source s config) := by
  refine ⟨sourceOpening config, sourceEnding config, source_eq s config, rfl,
    fun h => ⟨?_, Starts.blank.append (starts_namespaceEnd h.nameSpace)⟩⟩
  have hutility : Starts frameStarts [.blank, inclusion "utility.h", .blank] :=
    ⟨rfl, by decide⟩
  exact (starts_disclaimer.append Starts.blank).append <| (starts_inclusion _).append <|
    hutility.append <| (starts_namespaceStart h.nameSpace).append Starts.blank

theorem framed_bridge : Framed config (bridgeBody s) (bridge s config) := by
  refine ⟨[disclaimer, .blank, .line "#ifndef BUILD_NODEJS",
      .line "#error \"This file only works in Node builds\"", .line "#endif // BUILD_NODEJS", .blank,
      .line "#include <napi.h>", .blank] ++
      ((bridgeInclusions config.files).map inclusion ++
        ([.blank] ++ ([namespaceStart config.nameSpace] ++ [.blank]))),
    [.blank] ++ [namespaceEnd config.nameSpace], ?_, rfl,
    fun h => ⟨?_, Starts.blank.append (starts_namespaceEnd h.nameSpace)⟩⟩
  · simp only [bridge, bridgeBody, List.append_assoc, List.cons_append, List.nil_append]
  · have hstart : Starts frameStarts [disclaimer, .blank, .line "#ifndef BUILD_NODEJS",
        .line "#error \"This file only works in Node builds\"", .line "#endif // BUILD_NODEJS",
        .blank, .line "#include <napi.h>", .blank] := ⟨rfl, by decide⟩
    exact hstart.append <| (starts_inclusions _).append <| Starts.blank.append <|
      (starts_namespaceStart h.nameSpace).append Starts.blank

/-- The import is the one line of this frame that is not a comment. -/
def importLine (config : Config) : String :=
  "import \x7b Response \x7d from '" ++ config.responseModule ++ "'"

theorem fillsLine_importLine (h : '\n' ∉ config.responseModule.toList) :
    FillsLine (importLine config) := by
  unfold importLine
  exact fillsLine_of_getLast? (c := '\x27') (by simp [h]) (getLast?_toList_append _ (by decide))
    (by decide)

theorem importLine_eq : importLine config =
    "import" ++ (" \x7b Response \x7d from '" ++ config.responseModule ++ "'") := by
  rw [← String.append_assoc, ← String.append_assoc]
  rfl

theorem starts_importLine (h : '\n' ∉ config.responseModule.toList) :
    Starts frameStarts [.line (importLine config)] :=
  starts_line "import" _ (c := 't') (by simp [frameStarts]) rfl (by decide) (importLine_eq config)
    (fillsLine_importLine config h).1

theorem declarations_eq : declarations s config =
    [disclaimer, .blank] ++ [.line (importLine config)] ++ [.blank] ++ declarationsBody s := by
  unfold declarations declarationsBody importLine
  simp only [List.append_assoc, List.cons_append, List.nil_append]

theorem framed_declarations : Framed config (declarationsBody s) (declarations s config) := by
  refine ⟨[disclaimer, .blank] ++ [.line (importLine config)] ++ [.blank], [], ?_, rfl,
    fun h => ⟨?_, Starts.nil⟩⟩
  · rw [declarations_eq, List.append_nil]
  · exact ((starts_disclaimer.append Starts.blank).append
      (starts_importLine config h.responseModule)).append Starts.blank

end Files

end Generated

end CommandSchema
