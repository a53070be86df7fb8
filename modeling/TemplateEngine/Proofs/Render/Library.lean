import TemplateEngine.Proofs.Files.Tree
import TemplateEngine.Proofs.Script.Parametricity
import TemplateEngine.Render.Renderer

/-!
# Rendering from a library

A library answers to the name of a template with its program, or with the error that there is
none. A renderer that gives the answers of a library, out of whatever it remembers or keeps,
renders what the library renders: nothing else outside a page reaches its output. Of some
names nothing may be known, and templates may be followed only so deep; what becomes of a page
that goes there is left open.
-/
namespace TemplateEngine

/-- A state with what lies outside of the pages. -/
def Shared.within {ω : Type} (s : Shared Unit) (w : ω) : Shared ω := ⟨s.heap, w⟩

/-- A state with what lies outside of the page. -/
def State.within {ω : Type} (s : State Unit) (w : ω) : State ω :=
  { toShared := s.toShared.within w, scope := s.scope }

theorem Run.effect_within {ω α : Type} (x : Effect α) (s : State Unit) (w : ω) :
    Run.effect x (s.within w) =
      match x s.heap with
      | .ok (a, heap) => .ok a (State.within { s with heap := heap } w)
      | .error cause => .error (.raised ⟨cause, 0⟩) (s.within w) := rfl

theorem Run.request_within {ω : Type} (host : Host ω) (request : Request) (vars : Entries Value)
    (s : State Unit) (w : ω) : Run.request host request vars (s.within w) =
      match host request vars (s.toShared.within w) with
      | .ok t shared => .ok t ⟨shared, s.scope⟩
      | .error stop shared => .error stop ⟨shared, s.scope⟩ := rfl

/-- A result in a world that is kept in some condition is that of a computation without a world,
unless that one failed in the way that leaves things open. -/
inductive Realizes.Outcome {ε σ σ' ω α : Type} (within : σ → ω → σ') (leftOpen : ε)
    (kept : ω → Prop) : EStateM.Result ε σ α → EStateM.Result ε σ' α → Prop
  | ok {a : α} {s : σ} {w : ω} : kept w → Outcome within leftOpen kept (.ok a s) (.ok a (within s w))
  | error {e : ε} {s : σ} {w : ω} : kept w →
      Outcome within leftOpen kept (.error e s) (.error e (within s w))
  | leftOpen {s : σ} {result : EStateM.Result ε σ' α} :
      Outcome within leftOpen kept (.error leftOpen s) result

/-- A computation in a world that is kept in some condition comes to what another one comes to
without a world. -/
def Realizes {ε σ σ' ω α : Type} (within : σ → ω → σ') (leftOpen : ε) (kept : ω → Prop)
    (x : EStateM ε σ α) (y : EStateM ε σ' α) : Prop :=
  ∀ (s : σ) (w : ω), kept w → Realizes.Outcome within leftOpen kept (x s) (y (within s w))

namespace Realizes

variable {ε σ σ' ω α β : Type} {within : σ → ω → σ'} {leftOpen : ε} {kept : ω → Prop}

theorem Outcome.exists_of_ok {a : α} {s : σ} {result : EStateM.Result ε σ' α}
    (h : Outcome within leftOpen kept (.ok a s) result) :
    ∃ w, kept w ∧ result = .ok a (within s w) := by
  cases h with
  | ok hw => exact ⟨_, hw, rfl⟩

/-- A computation that leaves nothing open has a result if and only if its realization has. -/
theorem Outcome.exists_ok {result : EStateM.Result ε σ α} {result' : EStateM.Result ε σ' α}
    (h : Outcome within leftOpen kept result result')
    (hclosed : ∀ s, result ≠ .error leftOpen s) (a : α) :
    (∃ t, result' = .ok a t) ↔ ∃ t, result = .ok a t := by
  cases h with
  | ok hw => simp
  | error hw => simp
  | leftOpen => exact absurd rfl (hclosed _)

theorem pure (a : α) : Realizes within leftOpen kept (pure a) (pure a) := fun _ _ hw => .ok hw

theorem throw (e : ε) :
    Realizes within leftOpen kept (throw e : EStateM ε σ α) (throw e : EStateM ε σ' α) :=
  fun _ _ hw => .error hw

theorem bind {x : EStateM ε σ α} {y : EStateM ε σ' α} {f : α → EStateM ε σ β}
    {g : α → EStateM ε σ' β} (hx : Realizes within leftOpen kept x y)
    (hf : ∀ a, Realizes within leftOpen kept (f a) (g a)) :
    Realizes within leftOpen kept (x >>= f) (y >>= g) := by
  intro s w hw
  have h := hx s w hw
  show Outcome within leftOpen kept (EStateM.bind x f s) (EStateM.bind y g (within s w))
  unfold EStateM.bind
  generalize x s = found at h ⊢
  generalize y (within s w) = found' at h ⊢
  cases h with
  | ok hw' => exact hf _ _ _ hw'
  | error hw' => exact .error hw'
  | leftOpen => exact .leftOpen

end Realizes

section Pages

variable {ω : Type} {kept : ω → Prop}

/-- A script in a world comes to what another comes to without one. -/
abbrev Run.Realizes (kept : ω → Prop) (α : Type) (x : Run Unit α) (y : Run ω α) : Prop :=
  TemplateEngine.Realizes State.within Stop.outOfFuel kept x y

/-- A render in a world comes to what another comes to without one. -/
abbrev Rendering.Realizes {α : Type} (kept : ω → Prop) (x : Rendering Unit α)
    (y : Rendering ω α) : Prop :=
  TemplateEngine.Realizes Shared.within RenderFailure.outOfFuel kept x y

/-- A host in a world answers what another answers without one. -/
def Host.Realizes (kept : ω → Prop) (host : Host Unit) (host' : Host ω) : Prop :=
  ∀ request vars, TemplateEngine.Realizes Shared.within Stop.outOfFuel kept (host request vars)
    (host' request vars)

theorem Run.realizes_effect {α : Type} (x : Effect α) :
    Run.Realizes kept α (Run.effect x) (Run.effect x) := by
  intro s w hw
  rw [effect_within, effect]
  cases x s.heap with
  | ok found => exact .ok hw
  | error cause => exact .error hw

theorem Run.realizes_attempt {α : Type} {x : Run Unit α} {y : Run ω α}
    (hx : Run.Realizes kept α x y) :
    Run.Realizes kept (Except Raised α) (Run.attempt x) (Run.attempt y) := by
  intro s w hw
  have h := hx s w hw
  unfold Run.attempt
  generalize x s = found at h ⊢
  generalize y (s.within w) = found' at h ⊢
  cases h with
  | ok hw' => exact .ok hw'
  | @error stop _ _ hw' =>
      cases stop with
      | raised r => exact .ok hw'
      | outOfFuel => exact .leftOpen
  | leftOpen => exact .leftOpen

/-- Whatever scripts are put together from comes to the same in a world as without one. -/
theorem Run.fullyParametric_realizes (kept : ω → Prop) :
    Run.FullyParametric (Run.Realizes kept) where
  pure := Realizes.pure
  fail := fun _ => Realizes.throw _
  effect := Run.realizes_effect
  ofScope := fun _ _ _ hw => .ok hw
  change := fun _ _ _ hw => .ok hw
  bind := Realizes.bind
  throw := Realizes.throw
  attempt := Run.realizes_attempt

theorem Host.Realizes.related {host : Host Unit} {host' : Host ω}
    (hhost : Host.Realizes kept host host') : host.Related (Run.Realizes kept) host' := by
  intro request vars s w hw
  have h := hhost request vars s.toShared w hw
  rw [Run.request_within, Run.request]
  generalize host request vars s.toShared = found at h ⊢
  generalize host' request vars (s.toShared.within w) = found' at h ⊢
  cases h with
  | ok hw' => exact .ok hw'
  | error hw' => exact .error hw'
  | leftOpen => exact .leftOpen

/-- A page comes to the same under hosts that do. -/
theorem Program.realizes_render {host : Host Unit} {host' : Host ω}
    (hhost : Host.Realizes kept host host') (site : Site) (vars : Entries Value) (p : Program) :
    Rendering.Realizes kept (p.render host site vars) (p.render host' site vars) := by
  intro s w hw
  have h := Run.related_program (Run.fullyParametric_realizes kept) hhost.related p.body
    (begin site vars s) w hw
  have hbegin : begin site vars (s.within w) = (begin site vars s).within w := rfl
  unfold Program.render
  rw [hbegin]
  generalize Run.program host p.body (begin site vars s) = found at h ⊢
  generalize Run.program host' p.body ((begin site vars s).within w) = found' at h ⊢
  cases h with
  | ok hw' => exact .ok hw'
  | @error stop _ _ hw' =>
      cases stop with
      | raised r => exact .error hw'
      | outOfFuel => exact .leftOpen
  | leftOpen => exact .leftOpen

end Pages

/-- What a render answers to the page that asked for it. -/
def Rendering.answer {ω : Type} (x : Rendering ω Text) : EStateM Stop (Shared ω) Text := fun s =>
  match x s with
  | .ok t s => .ok t s
  | .error (.template error) s => .error (.raised ⟨Renderer.causeOf error, 0⟩) s
  | .error .outOfFuel s => .error .outOfFuel s

theorem Rendering.exists_answer {ω : Type} (x : Rendering ω Text) (s : Shared ω) (t : Text) :
    (∃ after, Rendering.answer x s = .ok t after) ↔ ∃ after, x s = .ok t after := by
  unfold Rendering.answer
  rcases x s with _ | ⟨_ | _, _⟩ <;> simp

/-- Whether a render came to an end before the rounds of its loops ran out. -/
def Rendering.ends {ω : Type} (x : Rendering ω Text) (s : Shared ω) : Bool :=
  match x s with
  | .error .outOfFuel _ => false
  | _ => true

theorem Rendering.ne_outOfFuel {ω : Type} {x : Rendering ω Text} {s : Shared ω}
    (h : Rendering.ends x s = true) (after : Shared ω) : x s ≠ .error .outOfFuel after := by
  intro hopen
  rw [Rendering.ends, hopen] at h
  cases h

theorem Rendering.Realizes.answer {ω : Type} {kept : ω → Prop} {x : Rendering Unit Text}
    {y : Rendering ω Text} (hx : Rendering.Realizes kept x y) :
    TemplateEngine.Realizes Shared.within Stop.outOfFuel kept (Rendering.answer x)
      (Rendering.answer y) := by
  intro s w hw
  have h := hx s w hw
  unfold Rendering.answer
  generalize x s = found at h ⊢
  generalize y (s.within w) = found' at h ⊢
  cases h with
  | ok hw' => exact .ok hw'
  | @error failure _ _ hw' =>
      cases failure with
      | template error => exact .error hw'
      | outOfFuel => exact .leftOpen
  | leftOpen => exact .leftOpen

/-- What the names of templates stand for, as far as it is known. -/
abbrev Library := Text → Option (Except TemplateError Program)

namespace Library

/-- The output of a template of a library whose pages reach others through a host. -/
def renderWith (lib : Library) (site : Site) (host : Host Unit) (request : Request)
    (vars : Entries Value) : Rendering Unit Text :=
  match request with
  | .file name =>
    match lib name with
    | some (.ok program) => program.render host site vars
    | some (.error error) => throw (.template error)
    | none => throw .outOfFuel
  | .template text =>
    match (Source.ofText text).compile with
    | .ok program => program.render host site vars
    | .error error => throw (.template error)

/-- How pages reach the templates of a library, so many renders deep; what is deeper is left to
another host. -/
def hostOver (lib : Library) (site : Site) (bottom : Host Unit) : Nat → Host Unit
  | 0 => bottom
  | depth + 1 => fun request vars =>
    Rendering.answer (lib.renderWith site (hostOver lib site bottom depth) request vars)

end Library

/-- The host of pages that are nested too deep to reach other templates. -/
def Host.refusing : Host Unit := fun _ _ => throw (.raised ⟨.nestedTooDeeply, 0⟩)

/-- The host that leaves open what other templates come to. -/
def Host.silent : Host Unit := fun _ _ => throw .outOfFuel

namespace Renderer

variable {r : Renderer} {lib : Library} {kept : Workspace → Prop}

/-- As long as its workspace is kept in some condition, a renderer loads the programs of a library,
and keeps it so. -/
structure Serves (r : Renderer) (lib : Library) (kept : Workspace → Prop) : Prop where
  answers : ∀ {w : Workspace} {name : Text} {answer : Except TemplateError Program}, kept w →
    lib name = some answer → (r.load (r.resolve name) r.encoding w).1.map Loaded.program = answer
  keeps : ∀ {w : Workspace} {name : Text} {answer : Except TemplateError Program}, kept w →
    lib name = some answer → kept (r.load (r.resolve name) r.encoding w).2

theorem hostTo_succ (r : Renderer) (depth : Nat) (request : Request) (vars : Entries Value) :
    r.hostTo (depth + 1) request vars =
      Rendering.answer (r.renderWith (r.hostTo depth) r.encoding request vars) := by
  funext s
  rw [hostTo, Rendering.answer]
  dsimp only
  rcases r.renderWith (r.hostTo depth) r.encoding request vars s with _ | ⟨_ | _, _⟩ <;> rfl

theorem renderWith_file (r : Renderer) (host : Host Workspace) (encoding : Encoding) (name : Text)
    (vars : Entries Value) (s : Shared Workspace) :
    r.renderWith host encoding (.file name) vars s =
      match r.load (r.resolve name) encoding s.world with
      | (.ok loaded, w) => loaded.program.render host r.site vars { s with world := w }
      | (.error e, w) => .error (.template e) { s with world := w } := by
  show EStateM.bind (r.compileFile name encoding) _ s = _
  unfold EStateM.bind compileFile
  rcases r.load (r.resolve name) encoding s.world with ⟨_ | _, _⟩ <;> rfl

theorem realizes_silent (kept : Workspace → Prop) (host : Host Workspace) :
    Host.Realizes kept .silent host := fun _ _ _ _ _ => .leftOpen

theorem realizes_refusing (kept : Workspace → Prop) (r : Renderer) :
    Host.Realizes kept .refusing (r.hostTo 0) := fun _ _ => Realizes.throw _

section Serving

variable (hserves : r.Serves lib kept)
include hserves

/-- A renderer that serves a library renders what the library does. -/
theorem Serves.realizes_renderWith {host : Host Unit} {host' : Host Workspace}
    (hhost : Host.Realizes kept host host') (request : Request) (vars : Entries Value) :
    Rendering.Realizes kept (lib.renderWith r.site host request vars)
      (r.renderWith host' r.encoding request vars) := by
  cases request with
  | template text =>
      unfold Library.renderWith renderWith
      dsimp only
      cases (Source.ofText text).compile with
      | ok p => exact Program.realizes_render hhost r.site vars p
      | error e => exact Realizes.throw _
  | file name =>
      intro s w hw
      unfold Library.renderWith
      dsimp only
      cases hname : lib name with
      | none => exact .leftOpen
      | some answer =>
          have hanswer := hserves.answers hw hname
          have hkeeps := hserves.keeps hw hname
          rw [renderWith_file]
          dsimp only [Shared.within]
          generalize r.load (r.resolve name) r.encoding w = found at hanswer hkeeps ⊢
          obtain ⟨found, w'⟩ := found
          cases found with
          | ok loaded =>
              obtain rfl : .ok loaded.program = answer := hanswer
              exact Program.realizes_render hhost r.site vars loaded.program s w' hkeeps
          | error e =>
              obtain rfl : .error e = answer := hanswer
              exact .error hkeeps

/-- The program that a library has for a name is loaded for it. -/
theorem Serves.load_ok {name : Text} {p : Program} (hname : lib name = some (.ok p))
    {w : Workspace} (hw : kept w) : ∃ loaded w', kept w' ∧ loaded.program = p ∧
      r.load (r.resolve name) r.encoding w = (.ok loaded, w') := by
  have hanswer := hserves.answers hw hname
  have hkeeps := hserves.keeps hw hname
  generalize r.load (r.resolve name) r.encoding w = found at hanswer hkeeps ⊢
  obtain ⟨found, w'⟩ := found
  cases found with
  | ok loaded => exact ⟨loaded, w', hkeeps, Except.ok.inj hanswer, rfl⟩
  | error e => exact nomatch hanswer

/-- Pages of a renderer reach what those of a library do, as deep as the library is followed. -/
theorem Serves.realizes_hostOver {bottom : Host Unit} {above : Nat}
    (hbottom : Host.Realizes kept bottom (r.hostTo above)) (depth : Nat) :
    Host.Realizes kept (lib.hostOver r.site bottom depth) (r.hostTo (above + depth)) := by
  induction depth with
  | zero => exact hbottom
  | succ depth ih =>
      intro request vars
      rw [← Nat.add_assoc, hostTo_succ]
      exact (hserves.realizes_renderWith ih request vars).answer

end Serving

end Renderer

/-- The programs of what files hold under some names. -/
def Library.ofFiles (r : Renderer) (files : FileTree) (names : List Text) : Library := fun name =>
  if name ∈ names then
    some ((Source.ofFile files (r.resolve name) r.encoding).bind Source.compile)
  else none

namespace Renderer

/-- Nothing outdated that is remembered of files under some names passes for current. -/
structure Abreast (r : Renderer) (files : FileTree) (names : List Text) (w : Workspace) :
    Prop where
  files_eq : w.files = files
  remembered : ∀ name ∈ names, ∀ loaded, w.remembered? (r.resolve name) = some loaded →
    files.stamp (r.resolve name) = .ok (loaded.stamp.getD 0) → loaded.encoding = r.encoding →
      (Source.ofFile files (r.resolve name) r.encoding).bind Source.compile = .ok loaded.program

section Files

variable {r : Renderer} {files : FileTree} {names : List Text} {w : Workspace}

theorem abreast_ofFiles (r : Renderer) (files : FileTree) (names : List Text) (now : Nat) :
    r.Abreast files names (.ofFiles files now) := ⟨rfl, fun _ _ _ h => nomatch h⟩

theorem ofFile_of_stamp_error {path : Text} {cause : FileError} (h : files.stamp path = .error cause)
    (encoding : Encoding) :
    Source.ofFile files path encoding = .error (.unreadable path cause) := by
  unfold FileTree.stamp at h
  cases hplace : files.resolve path with
  | ok place =>
      rw [hplace] at h
      exact nomatch h
  | error cause' =>
      rw [hplace] at h
      obtain rfl := Except.error.inj h
      have hread : files.read path = .error cause' := by
        unfold FileTree.read
        rw [hplace]
        rfl
      rw [Source.ofFile, hread]

/-- A renderer that keeps nothing compiles what it reads, counts that, and remembers a program. -/
theorem read_eq_of_uncached (hcache : r.cacheDir = none) (path : Text) (encoding : Encoding)
    (w : Workspace) :
    r.read path encoding w =
      match Source.ofFile w.files path encoding with
      | .error error => (.error error, w)
      | .ok source =>
        match source.compile with
        | .error error => (.error error, { w with stats := w.stats.miss })
        | .ok program => (.ok ⟨source.stamp, encoding, program, w.loads⟩,
            Workspace.remember path ⟨source.stamp, encoding, program, w.loads⟩
              { w with stats := w.stats.miss }) := by
  have hdisabled : r.cache = .disabled := by
    rw [cache, hcache]
  unfold read
  rw [hdisabled]
  cases Source.ofFile w.files path encoding with
  | error e => rfl
  | ok source =>
      have hcompile : (ArtifactCache.disabled : ArtifactCache FileTree).compile w.now source
          w.stats w.files = (source.compile, w.stats.miss, w.files) := by
        have hfind : (ArtifactCache.disabled : ArtifactCache FileTree).find? source w.files =
            none := rfl
        unfold ArtifactCache.compile
        rw [hfind]
        cases source.compile <;> rfl
      dsimp only
      generalize (ArtifactCache.disabled : ArtifactCache FileTree).compile w.now source w.stats
        w.files = result at hcompile ⊢
      subst hcompile
      cases source.compile <;> rfl

theorem read_uncached (hcache : r.cacheDir = none) (path : Text) (encoding : Encoding)
    (w : Workspace) :
    (r.read path encoding w).1.map Loaded.program =
        (Source.ofFile w.files path encoding).bind Source.compile ∧
      (r.read path encoding w).2.files = w.files ∧
      ((r.read path encoding w).2.programs = w.programs ∨
        ∃ loaded, (Source.ofFile w.files path encoding).bind Source.compile = .ok loaded.program ∧
          (r.read path encoding w).2.programs = (w.remember path loaded).programs) := by
  rw [read_eq_of_uncached hcache]
  cases Source.ofFile w.files path encoding with
  | error e => exact ⟨rfl, rfl, .inl rfl⟩
  | ok source =>
      have hbind : (Except.ok source).bind Source.compile = source.compile := rfl
      rw [hbind]
      dsimp only
      cases source.compile with
      | error e => exact ⟨rfl, rfl, .inl rfl⟩
      | ok p => exact ⟨rfl, rfl, .inr ⟨⟨source.stamp, encoding, p, w.loads⟩, rfl, rfl⟩⟩

theorem Abreast.read (hcache : r.cacheDir = none)
    (hnames : ∀ a ∈ names, ∀ b ∈ names, Path.key (r.resolve a) = Path.key (r.resolve b) → a = b)
    (hw : r.Abreast files names w) {name : Text} (hname : name ∈ names) :
    r.Abreast files names (r.read (r.resolve name) r.encoding w).2 := by
  obtain ⟨-, hfiles, hprograms⟩ := read_uncached hcache (r.resolve name) r.encoding w
  refine ⟨hfiles.trans hw.files_eq, fun other hother found hfound hstamp hencoding => ?_⟩
  rcases hprograms with hsame | ⟨loaded, hloaded, hremembered⟩
  · unfold Workspace.remembered? at hfound
    rw [hsame] at hfound
    exact hw.remembered other hother found hfound hstamp hencoding
  · unfold Workspace.remembered? at hfound
    rw [hremembered, Workspace.remember, List.lookup_cons] at hfound
    split at hfound
    · rename_i hkey
      obtain rfl := hnames other hother name hname (eq_of_beq hkey)
      obtain rfl := Option.some.inj hfound
      rwa [hw.files_eq] at hloaded
    · exact hw.remembered other hother found (lookup_of_lookup_filter hfound) hstamp hencoding

/-- A renderer that keeps nothing in a directory serves the programs of files that do not change,
if no two of their names are spellings of one path. -/
theorem serves_ofFiles (hcache : r.cacheDir = none)
    (hnames : ∀ a ∈ names, ∀ b ∈ names, Path.key (r.resolve a) = Path.key (r.resolve b) → a = b) :
    r.Serves (.ofFiles r files names) (r.Abreast files names) := by
  have hload {w : Workspace} (hw : r.Abreast files names w) {name : Text} (hname : name ∈ names) :
      (r.load (r.resolve name) r.encoding w).1.map Loaded.program =
          (Source.ofFile files (r.resolve name) r.encoding).bind Source.compile ∧
        r.Abreast files names (r.load (r.resolve name) r.encoding w).2 := by
    have hread := (read_uncached hcache (r.resolve name) r.encoding w).1
    rw [hw.files_eq] at hread
    have hkept := hw.read hcache hnames hname
    unfold load
    rw [hw.files_eq]
    cases hstamp : files.stamp (r.resolve name) with
    | error cause =>
        rw [ofFile_of_stamp_error hstamp]
        exact ⟨rfl, hw⟩
    | ok stamp =>
        dsimp only
        split
        · rename_i loaded hremembered
          split
          · rename_i hcurrent
            rw [Bool.and_eq_true, decide_eq_true_iff, decide_eq_true_iff] at hcurrent
            have htime : loaded.stamp.getD 0 = stamp := by rw [hcurrent.1]; rfl
            rw [hw.remembered name hname loaded hremembered (by rw [hstamp, htime]) hcurrent.2]
            exact ⟨rfl, hw⟩
          · exact ⟨hread, hkept⟩
        · exact ⟨hread, hkept⟩
  have hknown {name : Text} {answer : Except TemplateError Program}
      (h : Library.ofFiles r files names name = some answer) : name ∈ names ∧
        (Source.ofFile files (r.resolve name) r.encoding).bind Source.compile = answer := by
    unfold Library.ofFiles at h
    split at h
    · rename_i hname
      exact ⟨hname, Option.some.inj h⟩
    · exact nomatch h
  constructor
  · intro w name answer hw h
    obtain ⟨hname, rfl⟩ := hknown h
    exact (hload hw hname).1
  · intro w name answer hw h
    exact (hload hw (hknown h).1).2

end Files

end Renderer

end TemplateEngine
