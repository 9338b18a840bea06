import Copr.Builder.MockConfig

/-!
# Blocks of the configuration of mock

The template is put together from blocks that begin on lines of their own, so that its pieces are
those of a program whatever the values are.
-/

namespace Copr

open Literals IniFiles

namespace MockBuilder

/-! ## Blocks of the template -/

/-- A part of the template that begins on a line of its own, when the next one does. -/
structure Block (pieces : List Piece) : Prop where
  /-- It is empty or begins with a line end. -/
  begins : pieces = [] ∨ ∃ more, render pieces = '\n' :: more
  /-- No literal is directly before another one. -/
  separated : ∀ more, Separated ('\n' :: more) pieces
  /-- Each piece may stand there. -/
  formed : ∀ p ∈ pieces, p.WellFormed

/-- The rest of the template from the beginning of a line. -/
structure Rest (pieces : List Piece) : Prop where
  /-- It begins with a line end. -/
  begins : ∃ more, render pieces = '\n' :: more
  /-- No literal is directly before another one. -/
  separated : Separated [] pieces
  /-- Each piece may stand there. -/
  formed : ∀ p ∈ pieces, p.WellFormed

section Blocks

variable {pieces first second : List Piece} {q : Quote} {value : List Char}

/-- A block in front of the rest. -/
theorem Block.before (block : Block first) (rest : Rest second) : Rest (first ++ second) := by
  obtain ⟨more, text⟩ := rest.begins
  have formed : ∀ p ∈ first ++ second, p.WellFormed := fun p member =>
    (List.mem_append.mp member).elim (block.formed p) (rest.formed p)
  refine ⟨?_, ?_, formed⟩
  · cases block.begins with
    | inl empty =>
      rw [empty]
      exact rest.begins
    | inr begins =>
      obtain ⟨before, line⟩ := begins
      exact ⟨before ++ render second, by rw [render_append, line, List.cons_append]⟩
  · rw [separated_append, List.append_nil, text]
    exact ⟨block.separated more, rest.separated⟩

/-- Blocks of one kind in front of the rest. -/
theorem Block.flatMap {α : Type*} {f : α → List Piece} {l : List α} (blocks : ∀ x, Block (f x))
    (rest : Rest second) : Rest (l.flatMap f ++ second) := by
  induction l with
  | nil => exact rest
  | cons x l ih =>
    rw [List.flatMap_cons, List.append_assoc]
    exact (blocks x).before ih

/-- No pieces are a block. -/
theorem Block.nil : Block [] := ⟨Or.inl rfl, fun _ => trivial, fun _ member => nomatch member⟩

/-- Two blocks one after the other are a block. -/
theorem Block.append (one : Block first) (other : Block second) : Block (first ++ second) := by
  have formed : ∀ p ∈ first ++ second, p.WellFormed := fun p member =>
    (List.mem_append.mp member).elim (one.formed p) (other.formed p)
  have next (more : List Char) : ∃ rest, render second ++ '\n' :: more = '\n' :: rest := by
    cases other.begins with
    | inl empty => exact ⟨more, by rw [empty]; rfl⟩
    | inr begins =>
      obtain ⟨before, line⟩ := begins
      exact ⟨before ++ '\n' :: more, by rw [line, List.cons_append]⟩
  refine ⟨?_, fun more => ?_, formed⟩
  · cases one.begins with
    | inl empty =>
      rw [empty]
      exact other.begins
    | inr begins =>
      obtain ⟨before, line⟩ := begins
      exact Or.inr ⟨before ++ render second, by rw [render_append, line, List.cons_append]⟩
  · obtain ⟨rest, text⟩ := next more
    rw [separated_append, text]
    exact ⟨one.separated rest, other.separated more⟩

/-- No pieces are well formed. -/
theorem formed_nil : ∀ p ∈ ([] : List Piece), p.WellFormed := fun _ member => nomatch member

/-- Any value may stand between apostrophes. -/
theorem quoted_wellFormed (value : String) : (quoted value).WellFormed := rfl

/-- An option with a literal. -/
theorem block_option (key : String) (quote : isQuote q.mark = true) :
    Block [code "\nconfig_opts[", quoted key, code "] = ", .literal q value] := by
  refine ⟨Or.inr ⟨_, rfl⟩, fun more => ⟨rfl, rfl, trivial⟩, ?_⟩
  simp only [List.forall_mem_cons]
  exact ⟨by decide, quoted_wellFormed key, by decide, quote, formed_nil⟩

/-- The pieces of a macro are a block. -/
theorem block_macro (entry : String × String) : Block (macroPieces entry) := by
  refine ⟨Or.inr ⟨_, rfl⟩, fun more => ⟨rfl, rfl, rfl, trivial⟩, ?_⟩
  simp only [macroPieces, List.forall_mem_cons]
  exact ⟨by decide, quoted_wellFormed _, by decide, quoted_wellFormed _, by decide,
    quoted_wellFormed _, formed_nil⟩

end Blocks

section Template

variable {lib : UrlLibrary} {pprint : List ModuleCommand → String} {config : BuilderConfig}
  (task : BuilderTask)

/-- The pieces of the additional packages are a block. -/
theorem block_packages : Block (packagePieces task) := by
  unfold packagePieces
  split
  · exact Block.nil
  · exact Block.nil
  · rename_i packages _ _
    refine ⟨Or.inr ⟨_, rfl⟩, fun more => ⟨rfl, rfl, trivial⟩, ?_⟩
    simp only [List.forall_mem_cons]
    exact ⟨by decide, quoted_wellFormed _, by decide, quoted_wellFormed _, by decide, formed_nil⟩

/-- The pieces of the network settings are a block. -/
theorem block_network : Block (networkPieces task) := by
  unfold networkPieces
  cases task.enableNet with
  | true =>
    refine ⟨Or.inr ⟨_, rfl⟩, fun more => ⟨rfl, rfl, trivial⟩, ?_⟩
    simp only [List.forall_mem_cons]
    exact ⟨by decide, quoted_wellFormed _, by decide, quoted_wellFormed _, by decide, formed_nil⟩
  | false =>
    refine ⟨Or.inr ⟨_, rfl⟩, fun more => ⟨rfl, rfl, trivial⟩, ?_⟩
    simp only [List.forall_mem_cons]
    exact ⟨by decide, quoted_wellFormed _, by decide, quoted_wellFormed _, by decide, formed_nil⟩

/-- The pieces of the isolation are a block. -/
theorem block_isolation : Block (isolationPieces task) := by
  unfold isolationPieces
  split
  · exact Block.nil
  · exact Block.nil
  · exact block_option _ rfl

/-- Whether a bootstrap chroot is used. -/
theorem block_useBootstrap {one other : String} (listed : one ∈ ["True", "False"])
    (also : other ∈ ["True", "False"]) : Block (useBootstrapPieces one other) := by
  simp only [List.mem_cons, List.not_mem_nil, or_false] at listed also
  rcases listed with rfl | rfl <;> rcases also with rfl | rfl <;>
    refine ⟨Or.inr ⟨_, rfl⟩, fun more => ⟨rfl, rfl, trivial⟩, ?_⟩ <;>
    simp only [useBootstrapPieces, List.forall_mem_cons] <;>
    exact ⟨by decide, quoted_wellFormed _, by decide, quoted_wellFormed _, by decide, formed_nil⟩

/-- The pieces of the bootstrap image are a block. -/
theorem block_image : Block (imagePieces task) := by
  unfold imagePieces
  split
  · exact Block.nil
  · exact block_option _ rfl

/-- The pieces of the bootstrap settings are a block. -/
theorem block_bootstrap : Block (bootstrapPieces task) := by
  unfold bootstrapPieces
  split
  · exact block_useBootstrap (by decide) (by decide)
  · split
    · exact block_useBootstrap (by decide) (by decide)
    · split
      · exact (block_useBootstrap (by decide) (by decide)).append (block_image task)
      · exact Block.nil

/-- Text that is given is a part of a program by itself. -/
def Given (text : String) : Prop := (code text).WellFormed

instance Given.decidable (text : String) : Decidable (Given text) :=
  inferInstanceAs (Decidable (code text).WellFormed)

/-- The pieces of the modules are a block if the printed modules can be given in a template. -/
theorem block_modules (printed : ∀ modules, task.modules = some modules → Given (pprint modules)) :
    Block (modulePieces pprint task) := by
  unfold modulePieces
  split
  · exact Block.nil
  · rename_i modules there
    refine ⟨Or.inr ⟨_, rfl⟩, fun more => ⟨rfl, trivial⟩, ?_⟩
    simp only [List.forall_mem_cons]
    exact ⟨by decide, quoted_wellFormed _, by decide, printed modules there, formed_nil⟩

/-- A blank line and the options of dnf are the rest of a template. -/
theorem rest_dnf : Rest (code "\n\n" :: dnfPieces task) := by
  unfold dnfPieces
  split
  · refine ⟨⟨_, rfl⟩, trivial, ?_⟩
    simp only [List.forall_mem_cons]
    exact ⟨by decide, formed_nil⟩
  · refine ⟨⟨_, rfl⟩, trivial, ?_⟩
    simp only [List.forall_mem_cons]
    exact ⟨by decide, formed_nil⟩
  · refine ⟨⟨_, rfl⟩, ⟨rfl, rfl, trivial⟩, ?_⟩
    simp only [List.forall_mem_cons]
    exact ⟨by decide, by decide, rfl, by decide, rfl, by decide, formed_nil⟩

/-- The beginning of the template. -/
theorem head_formed
    (snippet : Given (mockSnippetForTags config.tagsToMockSnippet task.tags ++ "\n")) :
    ∀ p ∈ headPieces config task, p.WellFormed := by
  simp only [headPieces, List.forall_mem_cons]
  exact ⟨by decide, quoted_wellFormed _, by decide, quoted_wellFormed _, by decide,
    quoted_wellFormed _, by decide, quoted_wellFormed _, by decide, quoted_wellFormed _,
    by decide, quoted_wellFormed _, by decide, quoted_wellFormed _, by decide, snippet,
    by decide, formed_nil⟩

/-- The whole template is well formed, and no literal in it is directly before another one. -/
theorem mockConfig_formed
    (snippet : Given (mockSnippetForTags config.tagsToMockSnippet task.tags ++ "\n"))
    (printed : ∀ modules, task.modules = some modules → Given (pprint modules)) :
    (∀ p ∈ mockConfig lib pprint config task, p.WellFormed) ∧
      Separated [] (mockConfig lib pprint config task) := by
  have line : Block [code "\n"] :=
    ⟨Or.inr ⟨[], rfl⟩, fun _ => trivial, by
      rw [List.forall_mem_singleton]
      decide⟩
  have rest := (block_packages task).before (line.before ((block_network task).before
    ((block_isolation task).before (Block.flatMap (l := macrosForTask lib task config) block_macro
      ((block_bootstrap task).before ((block_modules task printed).before (rest_dnf task)))))))
  constructor
  · intro p member
    exact (List.mem_append.mp member).elim (head_formed task snippet p) (rest.formed p)
  · rw [mockConfig, separated_append]
    refine ⟨?_, rest.separated⟩
    exact ⟨rfl, rfl, rfl, rfl, rfl, rfl, rfl, trivial⟩

end Template

end MockBuilder

end Copr
