import CallBridge.Generated.Files
import CallBridge.Proofs.Basic

/-! # The lines of a generated file

Whatever stands in a generated file stands on lines: two lines of a header, and then paragraphs, each
of them behind a blank line. The three modules are told here as such paragraphs, with every line as
it is written and nothing left of how blocks are joined.
-/
namespace CallBridge.Generated

def linesText (lines : List String) : String :=
  String.join (lines.map (· ++ "\n"))

/-- The file that has these paragraphs. One without lines leaves no trace. -/
def fileText (paragraphs : List (List String)) : String :=
  linesText (["// This file is generated by bridgegen. Do not edit it by hand.",
    "// Regenerate with `bridgegen generate`."] ++
      (paragraphs.filter (· ≠ [])).flatMap ("" :: ·))

def Begins (word line : String) : Prop :=
  ∃ rest, line = word ++ rest

/-- The lines are one paragraph of the file, in their order, and no line of any other paragraph
begins with the word. -/
def StandsIn (lines : List String) (word text : String) : Prop :=
  ∃ front behind, text = fileText (front ++ lines :: behind) ∧
    ∀ p ∈ front ++ behind, ∀ l ∈ p, ¬ Begins word l

def objectLines (name : String) (members : List String) : List String :=
  ("expose(" ++ Text.literal name ++ ", \x7b") :: members.map (fun m => "  " ++ m ++ ",") ++ ["\x7d);"]

def interfaceLines (name : String) (members : List String) : List String :=
  ("export interface " ++ name ++ " \x7b") :: members.map (fun m => "  " ++ m ++ ";") ++ ["\x7d"]

/-- The declaration of a global object whose members have these names and interfaces. -/
def windowLines (members : List (String × String)) : List String :=
  ["declare global \x7b", "  interface Window \x7b"] ++
    members.map (fun m => "    " ++ m.1 ++ ": " ++ m.2 ++ ";") ++ ["  \x7d", "\x7d"]

theorem linesText_cons (line : String) (lines : List String) :
    linesText (line :: lines) = line ++ "\n" ++ linesText lines := by
  simp [linesText]

theorem linesText_append (lines lines' : List String) :
    linesText (lines ++ lines') = linesText lines ++ linesText lines' := by
  simp [linesText]

theorem unlines_end {lines : List String} (h : lines ≠ []) :
    unlines lines ++ "\n" = linesText lines := by
  match lines, h with
  | [line], _ => simp [unlines, linesText]
  | line :: next :: rest, _ =>
    have ih : unlines (next :: rest) ++ "\n" = linesText (next :: rest) :=
      unlines_end (List.cons_ne_nil _ _)
    rw [unlines] at ih
    rw [unlines, String.intercalate_cons_cons, linesText_cons, ← ih, String.append_assoc]

theorem unlines_eq_empty_iff {lines : List String} (h : ∀ l ∈ lines, l ≠ "") :
    unlines lines = "" ↔ lines = [] := by
  refine ⟨fun he => ?_, fun he => by rw [he]; rfl⟩
  match lines with
  | [] => rfl
  | [line] => exact absurd (by simpa [unlines] using he) (h line List.mem_cons_self)
  | line :: next :: rest => simp [unlines] at he

theorem intercalate_blocks (first : String) {paragraphs : List (List String)}
    (h : ∀ p ∈ paragraphs, p ≠ []) :
    "\n\n".intercalate (first :: paragraphs.map unlines) ++ "\n" =
      first ++ "\n" ++ linesText (paragraphs.flatMap ("" :: ·)) := by
  induction paragraphs generalizing first with
  | nil => simp [linesText]
  | cons p ps ih =>
    have hblank : "\n\n" = "\n" ++ "\n" := rfl
    rw [List.map_cons, String.intercalate_cons_cons, String.append_assoc,
      ih (unlines p) fun q hq => h q (.tail _ hq), unlines_end (h p List.mem_cons_self),
      List.flatMap_cons, linesText_append, linesText_cons, String.empty_append, hblank]
    simp only [String.append_assoc]

theorem layout_eq_fileText {paragraphs : List (List String)}
    (h : ∀ p ∈ paragraphs, ∀ l ∈ p, l ≠ "") :
    layout (header :: paragraphs.map unlines) = fileText paragraphs := by
  have hfilter : (header :: paragraphs.map unlines).filter (· ≠ "") =
      header :: (paragraphs.filter (· ≠ [])).map unlines := by
    rw [List.filter_cons_of_pos (by decide), List.filter_map]
    refine congrArg (header :: List.map unlines ·) (List.filter_congr fun p hp => ?_)
    simpa using unlines_eq_empty_iff (h p hp)
  rw [layout, hfilter, intercalate_blocks _ fun p hp => by simpa using (List.mem_filter.mp hp).2,
    fileText, linesText_append]
  refine congrArg (· ++ _) ?_
  decide

theorem Begins.ne_empty {word line : String} (h : Begins word line) (hword : word ≠ "") :
    line ≠ "" := by
  obtain ⟨rest, rfl⟩ := h
  rw [Ne, String.append_eq_empty_iff]
  exact fun he => hword he.1

/-- A line begins with one of two words only, unless one of them begins the other. -/
theorem Begins.not_begins {word word' line : String} (h : Begins word line)
    (hapart : ¬ word.toList <+: word'.toList ∧ ¬ word'.toList <+: word.toList) :
    ¬ Begins word' line := by
  rintro ⟨rest', h'⟩
  obtain ⟨rest, rfl⟩ := h
  have hlists := congrArg String.toList h'
  simp only [String.toList_append] at hlists
  have hword : word.toList <+: word.toList ++ rest.toList := List.prefix_append _ _
  have hword' : word'.toList <+: word.toList ++ rest.toList := hlists ▸ List.prefix_append _ _
  exact (List.prefix_or_prefix_of_prefix hword hword').elim hapart.1 hapart.2

theorem begins_append (word rest : String) : Begins word (word ++ rest) :=
  ⟨rest, rfl⟩

theorem Begins.append {word line : String} (h : Begins word line) (rest : String) :
    Begins word (line ++ rest) := by
  obtain ⟨more, rfl⟩ := h
  exact ⟨more ++ rest, String.append_assoc⟩

theorem ImportStatement.begins (i : ImportStatement) : Begins "import " i.text := by
  have hfirst : Begins "import " ((if i.typeOnly then "import type" else "import") ++ " \x7b ") := by
    cases i.typeOnly
    · exact begins_append "import " "\x7b "
    · exact begins_append "import " "type \x7b "
  exact (((hfirst.append _).append _).append _).append _

theorem Instance.begins (i : Instance) : Begins "const " i.text :=
  (((begins_append _ _).append _).append _).append _

theorem Registration.begins (r : Registration) : Begins "register" r.text := by
  have hfirst : Begins "register" (if r.stream then registerStreamName else registerName) := by
    cases r.stream
    · exact begins_append "register" ""
    · exact begins_append "register" "Stream"
  exact ((((hfirst.append _).append _).append _).append _).append _

theorem begins_of_mem_importLines {imports : ImportSet} {line : String}
    (h : line ∈ imports.statements.map ImportStatement.text) : Begins "import " line := by
  obtain ⟨i, -, rfl⟩ := List.mem_map.mp h
  exact i.begins

theorem begins_of_mem_objectLines {name line : String} {members : List String}
    (h : line ∈ objectLines name members) :
    Begins "expose(" line ∨ Begins "  " line ∨ Begins "\x7d);" line := by
  simp only [objectLines, List.mem_append, List.mem_cons, List.mem_map, List.not_mem_nil,
    or_false] at h
  rcases h with (rfl | ⟨m, -, rfl⟩) | rfl
  · exact .inl ((begins_append _ _).append _)
  · exact .inr (.inl ((begins_append _ _).append _))
  · exact .inr (.inr (begins_append _ ""))

theorem begins_of_mem_interfaceLines {name line : String} {members : List String}
    (h : line ∈ interfaceLines name members) :
    Begins "export " line ∨ Begins "  " line ∨ Begins "\x7d" line := by
  simp only [interfaceLines, List.mem_append, List.mem_cons, List.mem_map, List.not_mem_nil,
    or_false] at h
  rcases h with (rfl | ⟨m, -, rfl⟩) | rfl
  · have hfirst : Begins "export " "export interface " := begins_append "export " "interface "
    exact .inl ((hfirst.append _).append _)
  · exact .inr (.inl ((begins_append _ _).append _))
  · exact .inr (.inr (begins_append _ ""))

theorem begins_of_mem_windowLines {line : String} {members : List (String × String)}
    (h : line ∈ windowLines members) :
    Begins "declare " line ∨ Begins "  " line ∨ Begins "\x7d" line := by
  simp only [windowLines, List.mem_append, List.mem_cons, List.mem_map, List.not_mem_nil,
    or_false] at h
  rcases h with ((rfl | rfl) | ⟨m, -, rfl⟩) | rfl | rfl
  · exact .inl (begins_append "declare " "global \x7b")
  · exact .inr (.inl (begins_append "  " "interface Window \x7b"))
  · have hfirst : Begins "  " "    " := begins_append "  " "  "
    exact .inr (.inl ((((hfirst.append _).append _).append _).append _))
  · exact .inr (.inl (begins_append "  " "\x7d"))
  · exact .inr (.inr (begins_append _ ""))

namespace Backend

theorem text_eq (b : Backend) : b.text = fileText [b.imports.statements.map ImportStatement.text,
    b.instances.map Instance.text, b.registrations.map Registration.text] := by
  have hlines : ∀ p ∈ [b.imports.statements.map ImportStatement.text,
      b.instances.map Instance.text, b.registrations.map Registration.text], ∀ l ∈ p, l ≠ "" := by
    simp only [List.forall_mem_cons, List.forall_mem_map, List.not_mem_nil, false_imp_iff,
      forall_const, and_true]
    exact ⟨fun i _ => i.begins.ne_empty (by decide), fun i _ => i.begins.ne_empty (by decide),
      fun r _ => r.begins.ne_empty (by decide)⟩
  exact layout_eq_fileText hlines

/-- Imports, instances and registrations are three paragraphs, each with lines of its own kind. -/
theorem standsIn_text (b : Backend) :
    StandsIn (b.imports.statements.map ImportStatement.text) "import " b.text ∧
      StandsIn (b.instances.map Instance.text) "const " b.text ∧
      StandsIn (b.registrations.map Registration.text) "register" b.text := by
  refine ⟨⟨[], [_, _], b.text_eq, ?_⟩, ⟨[_], [_], b.text_eq, ?_⟩, ⟨[_, _], [], b.text_eq, ?_⟩⟩ <;>
    simp only [List.nil_append, List.append_nil, List.cons_append, List.forall_mem_cons,
      List.forall_mem_map, List.not_mem_nil, false_imp_iff, forall_const, and_true]
  · exact ⟨fun i _ => i.begins.not_begins (by decide), fun r _ => r.begins.not_begins (by decide)⟩
  · exact ⟨fun i _ => i.begins.not_begins (by decide), fun r _ => r.begins.not_begins (by decide)⟩
  · exact ⟨fun i _ => i.begins.not_begins (by decide), fun r _ => r.begins.not_begins (by decide)⟩

end Backend

namespace Bridge

/-- The text is that of a bridge that exposes these objects, each with the lines of its members. -/
def Shows (objects : List (String × List String)) (text : String) : Prop :=
  ∃ imports, (∀ l ∈ imports, Begins "import " l) ∧
    text = fileText (imports :: objects.map fun o => objectLines o.1 o.2)

def objects (b : Bridge) : List (String × List String) :=
  b.blocks.map fun o => (o.name, o.forwarders.map Forwarder.text)

theorem text_eq (b : Bridge) :
    b.text = fileText (b.imports.statements.map ImportStatement.text ::
      b.objects.map fun o => objectLines o.1 o.2) := by
  have hblocks : b.blocks.map ExposeBlock.text =
      (b.objects.map fun o => objectLines o.1 o.2).map unlines := by
    simp only [objects, List.map_map, Function.comp_def, objectLines]
    rfl
  rw [text, hblocks, ← List.map_cons]
  refine layout_eq_fileText fun p hp l hl => ?_
  rcases List.mem_cons.mp hp with rfl | hp
  · exact (begins_of_mem_importLines hl).ne_empty (by decide)
  · obtain ⟨o, -, rfl⟩ := List.mem_map.mp hp
    rcases begins_of_mem_objectLines hl with hl | hl | hl <;> exact hl.ne_empty (by decide)

theorem shows_text (b : Bridge) : Shows b.objects b.text :=
  ⟨_, fun _ => begins_of_mem_importLines, b.text_eq⟩

theorem standsIn_text (b : Bridge) :
    StandsIn (b.imports.statements.map ImportStatement.text) "import " b.text := by
  refine ⟨[], _, b.text_eq, fun p hp l hl => ?_⟩
  obtain ⟨o, -, rfl⟩ := List.mem_map.mp hp
  rcases begins_of_mem_objectLines hl with hl | hl | hl <;> exact hl.not_begins (by decide)

end Bridge

namespace Types

/-- The text is that of declarations of these interfaces, each with the lines of its members. -/
def Shows (interfaces : List (String × List String)) (text : String) : Prop :=
  ∃ imports window, (∀ l ∈ imports, Begins "import " l) ∧
    text = fileText (imports :: interfaces.map (fun i => interfaceLines i.1 i.2) ++
      (if interfaces = [] then [["export \x7b\x7d;"]] else []) ++ [windowLines window])

def declared (t : Types) : List (String × List String) :=
  t.interfaces.map fun i => (i.name, i.members.map Signature.text)

def declarations (t : Types) : List (List String) :=
  t.declared.map (fun i => interfaceLines i.1 i.2) ++
    (if t.declared = [] then [["export \x7b\x7d;"]] else []) ++
    [windowLines (t.interfaces.map fun i => (i.namespaceName, i.name))]

theorem begins_of_mem_declarations {t : Types} {p : List String} {l : String}
    (hp : p ∈ t.declarations) (hl : l ∈ p) :
    Begins "export " l ∨ Begins "declare " l ∨ Begins "  " l ∨ Begins "\x7d" l := by
  simp only [declarations, List.mem_append, List.mem_map, List.mem_singleton] at hp
  rcases hp with (⟨i, -, rfl⟩ | hempty) | rfl
  · exact (begins_of_mem_interfaceLines hl).imp_right .inr
  · split_ifs at hempty with h
    · obtain rfl := List.mem_singleton.mp hempty
      obtain rfl := List.mem_singleton.mp hl
      exact .inl ⟨"\x7b\x7d;", rfl⟩
    · cases hempty
  · exact .inr (begins_of_mem_windowLines hl)

theorem text_eq (t : Types) :
    t.text = fileText (t.imports.statements.map ImportStatement.text :: t.declarations) := by
  have hblocks : unlines (t.imports.statements.map ImportStatement.text) ::
      t.interfaces.map Interface.text ++
        (if t.interfaces.isEmpty then ["export \x7b\x7d;"] else []) ++ [t.windowText] =
      (t.imports.statements.map ImportStatement.text :: t.declarations).map unlines := by
    simp only [declarations, declared, List.map_cons, List.map_append, List.map_map,
      Function.comp_def, List.map_nil, List.map_eq_nil_iff, List.isEmpty_iff, List.cons_append]
    have hinterfaces : t.interfaces.map Interface.text = t.interfaces.map fun i =>
        unlines (interfaceLines i.name (i.members.map Signature.text)) := by
      refine List.map_congr_left fun i _ => ?_
      rw [Interface.text, interfaceLines, List.map_map]
      rfl
    have hwindow : t.windowText =
        unlines (windowLines (t.interfaces.map fun i => (i.namespaceName, i.name))) := by
      rw [windowText, windowLines, List.map_map]
      rfl
    rw [hinterfaces, hwindow]
    congr 2
    split_ifs <;> rfl
  change layout (header :: (_ :: t.interfaces.map Interface.text ++ _ ++ _)) = _
  rw [hblocks]
  refine layout_eq_fileText fun p hp l hl => ?_
  rcases List.mem_cons.mp hp with rfl | hp
  · exact (begins_of_mem_importLines hl).ne_empty (by decide)
  · rcases begins_of_mem_declarations hp hl with hl | hl | hl | hl <;> exact hl.ne_empty (by decide)

theorem shows_text (t : Types) : Shows t.declared t.text :=
  ⟨_, _, fun _ => begins_of_mem_importLines, t.text_eq⟩

theorem standsIn_text (t : Types) :
    StandsIn (t.imports.statements.map ImportStatement.text) "import " t.text := by
  refine ⟨[], _, t.text_eq, fun p hp l hl => ?_⟩
  rcases begins_of_mem_declarations hp hl with hl | hl | hl | hl <;>
    exact hl.not_begins (by decide)

end Types

end CallBridge.Generated
