import TemplateEngine.Artifact.Cache
import TemplateEngine.Render.Page

/-!
# Compilers

A compiler has one source, which it compiles at most once, on first use. It can keep
the program in a directory, and render it as often as needed. Its pages reach no
other templates.
-/
namespace TemplateEngine

/-- One source, where its program is kept, and what its pages share. -/
structure Compiler where
  source : Source
  cacheDir : Option Text
  site : Site

/-- What a compiler knows by now: its program, once it has one, and the files. -/
structure CompilerState where
  program : Option Program
  files : FileTree
  now : Nat
  stats : CacheStats

namespace Compiler

/-- A compiler of a source, under another identity if one is given. -/
def create (source : Source) (identity cacheDir : Option Text) (site : Site) : Compiler :=
  ⟨{ source with identity := identity.or source.identity }, cacheDir, site⟩

/-- What a compiler knows at first. -/
def start (files : FileTree) (now : Nat) : CompilerState := ⟨none, files, now, .zero⟩

/-- The artifact cache of a compiler. -/
def cache (c : Compiler) : ArtifactCache FileTree :=
  match c.cacheDir with
  | some dir => .onStore (DirectoryStore.store dir)
  | none => .disabled

/-- The program: the one there is, or the source compiled or loaded. -/
def compile (c : Compiler) (s : CompilerState) : Except TemplateError Program × CompilerState :=
  match s.program with
  | some program => (.ok program, s)
  | none =>
    let (result, stats, files) := c.cache.compile s.now c.source s.stats s.files
    (result, { s with program := result.toOption, stats := stats, files := files })

/-- The output of the program. -/
def render (c : Compiler) (vars : Entries Value) : Rendering CompilerState Text := fun s =>
  match c.compile s.world with
  | (.ok program, state) => program.render Host.absent c.site vars { s with world := state }
  | (.error error, state) => .error (.template error) { s with world := state }

end Compiler

end TemplateEngine
