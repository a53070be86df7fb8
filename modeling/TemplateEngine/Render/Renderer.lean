import TemplateEngine.Artifact.Cache
import TemplateEngine.Render.Page

/-!
# Renderers

A renderer renders template files and text for one site. It remembers the program of
a file until the file changes or is asked for in another encoding, and it may keep
programs in a directory as well. Its pages reach it through a global name, by which
they render other templates or put themselves into a layout; such renders are nested
only so deep.
-/
namespace TemplateEngine

/-- The program of a file, with the time and the encoding that it was read with. Every
load has a number of its own. -/
structure Loaded where
  stamp : Option Nat
  encoding : Encoding
  program : Program
  number : Nat

/-- What lies outside a page: the files, the time, and what the renderer remembers. -/
structure Workspace where
  files : FileTree
  now : Nat
  programs : List (List Text × Loaded)
  stats : CacheStats
  loads : Nat

namespace Workspace

/-- Nothing is remembered of the files. -/
def ofFiles (files : FileTree) (now : Nat) : Workspace := ⟨files, now, [], .zero, 0⟩

/-- The workspace as a new renderer finds it. -/
def forgetful (w : Workspace) : Workspace := { w with programs := [], stats := .zero }

/-- The program remembered for a path. -/
def remembered? (w : Workspace) (path : Text) : Option Loaded := w.programs.lookup (Path.key path)

/-- The workspace with a program remembered for a path. -/
def remember (path : Text) (loaded : Loaded) (w : Workspace) : Workspace :=
  let others := w.programs.filter fun entry => entry.1 ≠ Path.key path
  { w with programs := (Path.key path, loaded) :: others, loads := w.loads + 1 }

end Workspace

/-- What a renderer is made from. -/
structure RendererOptions where
  templateDir : Option Text
  cacheDir : Option Text
  globals : Entries Value
  filter : Option Filter
  encoding : Encoding

/-- A renderer of template files and text. -/
structure Renderer where
  templateDir : Option Text
  cacheDir : Option Text
  site : Site
  encoding : Encoding

namespace Renderer

/-- The name by which pages reach their renderer. -/
def globalName : Text := "renderer"

/-- How deep renders may be nested. -/
def maxNested : Nat := 16

/-- What pages find under the name of their renderer. -/
def inclusions : Entries Value :=
  Inclusion.all.map fun f => (f.name.toList, .function (.inclusion f))

/-- A renderer, and on the heap what its pages find under its name. -/
def create (options : RendererOptions) : Effect Renderer := do
  let own ← Effect.newDict inclusions
  return {
    templateDir := options.templateDir
    cacheDir := options.cacheDir
    site := ⟨Entries.put globalName own options.globals, options.filter⟩
    encoding := options.encoding }

/-- The artifact cache of a renderer. -/
def cache (r : Renderer) : ArtifactCache FileTree :=
  match r.cacheDir with
  | some dir => .onStore (DirectoryStore.store dir)
  | none => .disabled

/-- The path of a template name. -/
def resolve (r : Renderer) (name : Text) : Text :=
  match r.templateDir with
  | some dir => Path.join dir name
  | none => name

/-- The program of a file that is not remembered, read and compiled, or loaded from the
cache. -/
def read (r : Renderer) (path : Text) (encoding : Encoding) (w : Workspace) :
    Except TemplateError Loaded × Workspace :=
  match Source.ofFile w.files path encoding with
  | .error error => (.error error, w)
  | .ok source =>
    let (result, stats, files) := r.cache.compile w.now source w.stats w.files
    let w := { w with stats := stats, files := files }
    match result with
    | .error error => (.error error, w)
    | .ok program =>
      let loaded := Loaded.mk source.stamp encoding program w.loads
      (.ok loaded, w.remember path loaded)

/-- The program of the file at a path: the remembered one while the file is unchanged. -/
def load (r : Renderer) (path : Text) (encoding : Encoding) (w : Workspace) :
    Except TemplateError Loaded × Workspace :=
  match w.files.stamp path with
  | .error cause => (.error (.unreadable path cause), w)
  | .ok stamp =>
    match w.remembered? path with
    | some loaded =>
      if loaded.stamp = some stamp && loaded.encoding = encoding then (.ok loaded, w)
      else r.read path encoding w
    | none => r.read path encoding w

/-- The program of a template name, compiled in an encoding. -/
def compileFile (r : Renderer) (name : Text) (encoding : Encoding) :
    Rendering Workspace Loaded := fun s =>
  match r.load (r.resolve name) encoding s.world with
  | (.ok loaded, w) => .ok loaded { s with world := w }
  | (.error error, w) => .error (.template error) { s with world := w }

/-- The output of a template that reaches others through a host. -/
def renderWith (r : Renderer) (host : Host Workspace) (encoding : Encoding) (request : Request)
    (vars : Entries Value) : Rendering Workspace Text :=
  match request with
  | .file name => do
    let loaded ← r.compileFile name encoding
    loaded.program.render host r.site vars
  | .template text =>
    match (Source.ofText text).compile with
    | .ok program => program.render host r.site vars
    | .error error => throw (.template error)

/-- The cause of the exception that a template's error becomes in the page that asked for
the template. -/
def causeOf : TemplateError → Cause
  | .runtime f => .inTemplate f.name f.kind f.message
  | error => .brokenTemplate error.message

/-- How pages reach other templates, when so many renders may still be nested. -/
def hostTo (r : Renderer) : Nat → Host Workspace
  | 0 => fun _ _ => throw (.raised ⟨.nestedTooDeeply, 0⟩)
  | depth + 1 => fun request vars s =>
    match r.renderWith (hostTo r depth) r.encoding request vars s with
    | .ok t s => .ok t s
    | .error (.template error) s => .error (.raised ⟨causeOf error, 0⟩) s
    | .error .outOfFuel s => .error .outOfFuel s

/-- How pages reach other templates. -/
def host (r : Renderer) : Host Workspace := r.hostTo maxNested

/-- A render after which the heap is settled. -/
def settled {α : Type} (x : Rendering Workspace α) : Rendering Workspace α := fun s =>
  match x s with
  | .ok a t => .ok a { t with heap := s.heap.settle t.heap }
  | .error e t => .error e { t with heap := s.heap.settle t.heap }

/-- The output of a template file read in an encoding. -/
def renderFileIn (r : Renderer) (encoding : Encoding) (name : Text) (vars : Entries Value) :
    Rendering Workspace Text :=
  settled (r.renderWith r.host encoding (.file name) vars)

/-- The output of a template file. -/
def renderFile (r : Renderer) (name : Text) (vars : Entries Value) :
    Rendering Workspace Text := r.renderFileIn r.encoding name vars

/-- The output of a template given as text. -/
def renderString (r : Renderer) (text : Text) (vars : Entries Value) :
    Rendering Workspace Text :=
  settled (r.renderWith r.host r.encoding (.template text) vars)

/-- The output of a layout around that of a template file. -/
def renderWithLayout (r : Renderer) (layout name : Text) (vars : Entries Value) :
    Rendering Workspace Text :=
  settled do
    let body ← r.renderWith r.host r.encoding (.file name) vars
    r.renderWith r.host r.encoding (.file layout) (Entries.put "body" (.markup body) vars)

end Renderer

end TemplateEngine
