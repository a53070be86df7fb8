import TemplateEngine.Proofs.Render.Isolation
import TemplateEngine.Proofs.Render.Worlds

/-!
# Current files

A renderer that keeps nothing in a directory answers to a file with the program of what the file
holds now, or with the error that there is now, whatever was asked for before, as long as the times
of files tell their changes. What it remembers of a path it gives for every spelling of it, and so
under the name that was asked for first. A file that cannot be compiled leaves no trace in what
is asked for later.
-/
namespace TemplateEngine

namespace FileTree

/-- The program of what a path leads to, compiled anew. -/
def compiled (files : FileTree) (path : Text) (encoding : Encoding) :
    Except TemplateError Program :=
  (Source.ofFile files path encoding).bind Source.compile

/-- The times of files tell their changes: what a path leads to is the same in two file trees if it
has the same time in both. -/
def TellChanges (trees : List FileTree) : Prop :=
  ∀ t ∈ trees, ∀ t' ∈ trees, ∀ path path' stamp, Path.key path = Path.key path' →
    t.stamp path = .ok stamp → t'.stamp path' = .ok stamp → t.read path = t'.read path'

/-- The bytes of a file follow from its time. -/
def Dated (content : Nat → Bytes) : FileNode → Prop
  | .directory => True
  | .file bytes stamp => stamp ≠ 0 ∧ bytes = content stamp

instance (content : Nat → Bytes) (node : FileNode) : Decidable (Dated content node) :=
  match node with
  | .directory => .isTrue trivial
  | .file bytes stamp => inferInstanceAs (Decidable (stamp ≠ 0 ∧ bytes = content stamp))

theorem read_of_dated {content : Nat → Bytes} {t : FileTree}
    (ht : ∀ entry ∈ t.nodes, Dated content entry.2) {path : Text} {stamp : Nat}
    (hstamp : t.stamp path = .ok stamp) :
    t.read path = if stamp = 0 then .error .isDirectory else .ok (content stamp) := by
  unfold FileTree.stamp at hstamp
  unfold FileTree.read
  cases hplace : t.resolve path with
  | error cause =>
      rw [hplace] at hstamp
      cases hstamp
  | ok place =>
      rw [hplace] at hstamp
      have hnode := Except.ok.inj hstamp
      dsimp only [bind, Except.bind, pure, Except.pure] at hnode ⊢
      cases hfound : t.node? place with
      | none =>
          rw [hfound] at hnode
          exact (if_pos hnode.symm).symm
      | some node =>
          rw [hfound] at hnode
          cases node with
          | directory => exact (if_pos hnode.symm).symm
          | file bytes time =>
              obtain rfl : time = stamp := hnode
              have hmem : (place, FileNode.file bytes time) ∈ t.nodes := by
                unfold node? at hfound
                split at hfound
                · cases hfound
                · obtain ⟨before, after, hnodes, -⟩ := List.lookup_eq_some_iff.mp hfound
                  rw [hnodes]
                  exact List.mem_append_right _ List.mem_cons_self
              obtain ⟨htime, hbytes⟩ := ht _ hmem
              rw [if_neg htime, hbytes]

theorem tellChanges_of_dated (content : Nat → Bytes) {trees : List FileTree}
    (h : ∀ t ∈ trees, ∀ entry ∈ t.nodes, Dated content entry.2) : TellChanges trees := by
  intro t ht t' ht' path path' stamp _ hstamp hstamp'
  rw [read_of_dated (h t ht) hstamp, read_of_dated (h t' ht') hstamp']

end FileTree

/-- The name of a program says nothing of what is compiled. -/
theorem Program.ofTemplate_rename {name text : Text} {p : Program}
    (h : Program.ofTemplate name text = .ok p) (other : Text) :
    p.name = name ∧ Program.ofTemplate other text = .ok { p with name := other } := by
  unfold Program.ofTemplate at h ⊢
  cases hgenerated : Generated.ofTemplate text with
  | error e =>
      rw [hgenerated] at h
      exact nomatch h
  | ok g =>
      rw [hgenerated] at h
      dsimp only at h ⊢
      cases hparsed : parseProgram g.source with
      | error e =>
          rw [hparsed] at h
          exact nomatch h
      | ok body =>
          rw [hparsed] at h
          obtain rfl := Except.ok.inj h
          exact ⟨rfl, rfl⟩

/-- Files of the same bytes have the same program but for its name. -/
theorem FileTree.compiled_of_read {t t' : FileTree} {path path' : Text} {encoding : Encoding}
    {p : Program} (hread : t.read path = t'.read path') (h : t.compiled path encoding = .ok p) :
    p.name = path ∧ t'.compiled path' encoding = .ok { p with name := path' } := by
  unfold FileTree.compiled Source.ofFile at h ⊢
  rw [hread] at h
  cases hbytes : t'.read path' with
  | error cause =>
      rw [hbytes] at h
      exact nomatch h
  | ok bytes =>
      rw [hbytes] at h
      unfold Source.ofBytes at h ⊢
      dsimp only at h ⊢
      cases htext : encoding.decode? bytes with
      | none =>
          rw [htext] at h
          exact nomatch h
      | some text =>
          rw [htext] at h
          exact Program.ofTemplate_rename h path'

namespace Renderer

/-- A change of a file. -/
inductive Edit where
  | write (path : Text) (bytes : Bytes) (stamp : Nat)
  | touch (path : Text) (stamp : Nat)
  | remove (path : Text)

/-- The files after a change. -/
def Edit.apply : Edit → FileTree → FileTree
  | .write path bytes stamp => FileTree.write path bytes stamp
  | .touch path stamp => FileTree.touch path stamp
  | .remove path => FileTree.remove path

/-- What happens to a renderer and its files. -/
inductive Step where
  | edit (e : Edit)
  | compile (name : Text) (encoding : Encoding)
  | render (name : Text) (encoding : Encoding) (vars : Entries Value)

/-- What comes of a step. -/
inductive Answer where
  | edited
  | compiled (result : Except RenderFailure Program)
  | rendered (result : Except RenderFailure Text)

/-- The files after a step. -/
def Step.files : Step → FileTree → FileTree
  | .edit e, files => e.apply files
  | _, files => files

/-- The files before, between and after steps. -/
def Step.trees : List Step → FileTree → List FileTree
  | [], files => [files]
  | step :: steps, files => files :: trees steps (step.files files)

/-- What comes of a step, and the state it leaves. -/
def Step.answer (r : Renderer) (step : Step) (s : Shared Workspace) : Answer × Shared Workspace :=
  match step with
  | .edit e => (.edited, { s with world := { s.world with files := e.apply s.world.files } })
  | .compile name encoding =>
    match r.compileFile name encoding s with
    | .ok loaded t => (.compiled (.ok loaded.program), t)
    | .error failure t => (.compiled (.error failure), t)
  | .render name encoding vars =>
    match r.renderFileIn encoding name vars s with
    | .ok output t => (.rendered (.ok output), t)
    | .error failure t => (.rendered (.error failure), t)

/-- The state after steps. -/
def Step.state (r : Renderer) : List Step → Shared Workspace → Shared Workspace
  | [], s => s
  | step :: steps, s => state r steps (step.answer r s).2

/-- What comes of steps, one after another. -/
def Step.answers (r : Renderer) : List Step → Shared Workspace → List Answer
  | [], _ => []
  | step :: steps, s => (step.answer r s).1 :: answers r steps (step.answer r s).2

/-- What is due to a step that finds some files: to a compilation the program or the error of what
its path leads to, under a name that fits the path. Nothing is said of what is rendered. -/
inductive Answer.Due (r : Renderer) (fits : Text → Text → Prop) (files : FileTree) :
    Step → Answer → Prop
  | edited {e : Edit} : Due r fits files (.edit e) .edited
  | compiled {name called : Text} {encoding : Encoding} {p : Program} :
      files.compiled (r.resolve name) encoding = .ok p → fits called (r.resolve name) →
      Due r fits files (.compile name encoding) (.compiled (.ok { p with name := called }))
  | refused {name : Text} {encoding : Encoding} {error : TemplateError} :
      files.compiled (r.resolve name) encoding = .error error →
      Due r fits files (.compile name encoding) (.compiled (.error (.template error)))
  | rendered {name : Text} {encoding : Encoding} {vars : Entries Value}
      {result : Except RenderFailure Text} :
      Due r fits files (.render name encoding vars) (.rendered result)

/-- Every step has the answer that is due to it, as the files are when its turn comes. -/
def Answer.AllDue (r : Renderer) (fits : Text → Text → Prop) :
    List Step → List Answer → FileTree → Prop
  | [], [], _ => True
  | step :: steps, answer :: answers, files =>
    answer.Due r fits files step ∧ AllDue r fits steps answers (step.files files)
  | _, _, _ => False

/-- A file could not be compiled, to answer with its program or to render it. -/
inductive Answer.Refused : Answer → Prop
  | compiled {failure : RenderFailure} : Refused (.compiled (.error failure))
  | rendered {error : TemplateError} : (∀ f, error ≠ .runtime f) →
      Refused (.rendered (.error (.template error)))

/-- Two spellings of one path. -/
def SamePath (path path' : Text) : Prop := Path.key path = Path.key path'

section Loading

variable {r : Renderer} {trees : List FileTree} {w : Workspace}

/-- Whatever is remembered of a path is the program of what it led to in one of some trees. -/
def Recalls (trees : List FileTree) (w : Workspace) : Prop :=
  ∀ key loaded, w.programs.lookup key = some loaded → ∃ t ∈ trees, ∃ path stamp,
    Path.key path = key ∧ t.stamp path = .ok stamp ∧ loaded.stamp = some stamp ∧
      t.compiled path loaded.encoding = .ok loaded.program

theorem Recalls.of_programs {w' : Workspace} (hw : Recalls trees w)
    (h : w'.programs = w.programs) : Recalls trees w' := by
  intro key loaded hloaded
  rw [h] at hloaded
  exact hw key loaded hloaded

theorem Recalls.remember (hw : Recalls trees w) {t : FileTree} (ht : t ∈ trees) {path : Text}
    {stamp : Nat} (hstamp : t.stamp path = .ok stamp) {loaded : Loaded}
    (hloaded : loaded.stamp = some stamp)
    (hprogram : t.compiled path loaded.encoding = .ok loaded.program) :
    Recalls trees (w.remember path loaded) := by
  intro key found hfound
  rw [Workspace.remember, List.lookup_cons] at hfound
  split at hfound
  · rename_i hkey
    obtain rfl := Option.some.inj hfound
    exact ⟨t, ht, path, stamp, (eq_of_beq hkey).symm, hstamp, hloaded, hprogram⟩
  · exact hw key found (lookup_of_lookup_filter hfound)

/-- What comes of loading what a path leads to: its program under a spelling of the path, or its
error. -/
def LoadsCurrent (files : FileTree) (path : Text) (encoding : Encoding) :
    Except TemplateError Program → Prop
  | .ok p => files.compiled path encoding = .ok { p with name := path } ∧ SamePath p.name path
  | .error e => files.compiled path encoding = .error e

theorem loadsCurrent_compiled (files : FileTree) (path : Text) (encoding : Encoding) :
    LoadsCurrent files path encoding (files.compiled path encoding) := by
  cases h : files.compiled path encoding with
  | error e => exact h
  | ok p =>
      obtain ⟨hname, hsame⟩ := FileTree.compiled_of_read (Eq.refl (files.read path)) h
      exact ⟨hsame, congrArg Path.key hname⟩

theorem Recalls.read (hcache : r.cacheDir = none) (hw : Recalls trees w) (hfiles : w.files ∈ trees)
    {path : Text} {stamp : Nat} (hstamp : w.files.stamp path = .ok stamp) (encoding : Encoding) :
    LoadsCurrent w.files path encoding ((r.read path encoding w).1.map Loaded.program) ∧
      Recalls trees (r.read path encoding w).2 ∧ (r.read path encoding w).2.files = w.files := by
  obtain ⟨hanswer, hsame, -⟩ := read_uncached hcache path encoding w
  have hcurrent := loadsCurrent_compiled w.files path encoding
  rw [FileTree.compiled, ← hanswer] at hcurrent
  refine ⟨hcurrent, ?_, hsame⟩
  rw [read_eq_of_uncached hcache]
  cases hfile : Source.ofFile w.files path encoding with
  | error e => exact hw
  | ok source =>
      have hcompiled : w.files.compiled path encoding = source.compile := by
        rw [FileTree.compiled, hfile]
        rfl
      obtain ⟨bytes, -, hsource⟩ : ∃ bytes, w.files.read path = .ok bytes ∧
          source.stamp = some stamp := by
        unfold Source.ofFile at hfile
        split at hfile
        · cases hfile
        · rename_i bytes hread
          unfold Source.ofBytes at hfile
          split at hfile
          · obtain rfl := Except.ok.inj hfile
            exact ⟨bytes, hread, congrArg Except.toOption hstamp⟩
          · cases hfile
      dsimp only
      cases hprogram : source.compile with
      | error e => exact hw.of_programs rfl
      | ok p =>
          refine Recalls.remember (w := { w with stats := w.stats.miss }) (hw.of_programs rfl) hfiles
            hstamp hsource ?_
          rw [hcompiled, hprogram]

/-- Loading answers with what is current, and what is remembered afterwards is recalled. -/
theorem Recalls.load (hcache : r.cacheDir = none) (htrees : FileTree.TellChanges trees)
    (hw : Recalls trees w) (hfiles : w.files ∈ trees) (path : Text) (encoding : Encoding) :
    LoadsCurrent w.files path encoding ((r.load path encoding w).1.map Loaded.program) ∧
      Recalls trees (r.load path encoding w).2 ∧ (r.load path encoding w).2.files = w.files := by
  unfold Renderer.load
  cases hstamp : w.files.stamp path with
  | error cause =>
      refine ⟨?_, hw, rfl⟩
      change w.files.compiled path encoding = _
      rw [FileTree.compiled, ofFile_of_stamp_error hstamp]
      rfl
  | ok stamp =>
      dsimp only
      split
      · rename_i loaded hremembered
        split
        · rename_i hsame
          rw [Bool.and_eq_true, decide_eq_true_iff, decide_eq_true_iff] at hsame
          obtain ⟨t, ht, path', time, hkey, htime, hloaded, hprogram⟩ := hw _ _ hremembered
          obtain rfl : time = stamp := Option.some.inj (hloaded.symm.trans hsame.1)
          have hread := htrees t ht w.files hfiles path' path time hkey htime hstamp
          rw [hsame.2] at hprogram
          obtain ⟨hname, hcurrent⟩ := FileTree.compiled_of_read hread hprogram
          refine ⟨⟨hcurrent, ?_⟩, hw, rfl⟩
          exact (congrArg Path.key hname).trans hkey
        · exact hw.read hcache hfiles hstamp encoding
      · exact hw.read hcache hfiles hstamp encoding

/-- Loading does not depend on the counts. -/
theorem loadsAlike_stats (hcache : r.cacheDir = none) :
    r.LoadsAlike fun w w' => ∃ stats, w' = { w with stats := stats } := by
  have hload (path : Text) (encoding : Encoding) (w : Workspace) (stats : CacheStats) :
      (r.load path encoding { w with stats := stats }).1 = (r.load path encoding w).1 ∧
        ∃ stats', (r.load path encoding { w with stats := stats }).2 =
          { (r.load path encoding w).2 with stats := stats' } := by
    have hread : (r.read path encoding { w with stats := stats }).1 = (r.read path encoding w).1 ∧
        ∃ stats', (r.read path encoding { w with stats := stats }).2 =
          { (r.read path encoding w).2 with stats := stats' } := by
      rw [read_eq_of_uncached hcache, read_eq_of_uncached hcache]
      dsimp only
      cases Source.ofFile w.files path encoding with
      | error e => exact ⟨rfl, stats, rfl⟩
      | ok source =>
          dsimp only
          cases source.compile with
          | error e => exact ⟨rfl, stats.miss, rfl⟩
          | ok p => exact ⟨rfl, stats.miss, rfl⟩
    have hremembered : Workspace.remembered? { w with stats := stats } path =
        w.remembered? path := rfl
    unfold load
    rw [hremembered]
    dsimp only
    cases w.files.stamp path with
    | error cause => exact ⟨rfl, stats, rfl⟩
    | ok stamp =>
        dsimp only
        cases w.remembered? path with
        | none => exact hread
        | some loaded =>
            dsimp only
            split
            · exact ⟨rfl, stats, rfl⟩
            · exact hread
  constructor
  · rintro w _ ⟨stats, rfl⟩ name encoding
    rw [(hload _ encoding w stats).1]
  · rintro w _ ⟨stats, rfl⟩ name encoding
    exact (hload _ encoding w stats).2

/-- A file that cannot be loaded leaves everything but the counts as it is. -/
theorem load_state_of_error (hcache : r.cacheDir = none) {path : Text} {encoding : Encoding}
    {error : TemplateError} (h : (r.load path encoding w).1 = .error error) :
    ∃ stats, w = { (r.load path encoding w).2 with stats := stats } := by
  have hread (h : (r.read path encoding w).1 = .error error) :
      ∃ stats, w = { (r.read path encoding w).2 with stats := stats } := by
    rw [read_eq_of_uncached hcache] at h ⊢
    cases hfile : Source.ofFile w.files path encoding with
    | error e => exact ⟨w.stats, rfl⟩
    | ok source =>
        rw [hfile] at h
        dsimp only at h ⊢
        cases hcompile : source.compile with
        | error e => exact ⟨w.stats, rfl⟩
        | ok p =>
            rw [hcompile] at h
            exact nomatch h
  unfold load at h ⊢
  split at h
  · exact ⟨w.stats, rfl⟩
  · split at h
    · split at h
      · exact nomatch h
      · rename_i hchanged
        rw [if_neg hchanged]
        exact hread h
    · exact hread h

end Loading

section Steps

variable {r : Renderer}

/-- What loading keeps of a workspace is kept by whatever is rendered. -/
theorem kept_renderFileIn (kept : Workspace → Prop)
    (hkeeps : ∀ {w : Workspace}, kept w → ∀ (name : Text) (encoding : Encoding),
      kept (r.load (r.resolve name) encoding w).2)
    {s : Shared Workspace} (hs : kept s.world) (name : Text) (encoding : Encoding)
    (vars : Entries Value) : kept ((Step.render name encoding vars).answer r s).2.world := by
  have hloads : r.LoadsAlike fun w w' => w = w' ∧ kept w :=
    { answers := by
        rintro w _ ⟨rfl, -⟩ _ _
        rfl
      keeps := by
        rintro w _ ⟨rfl, hw⟩ name encoding
        exact ⟨rfl, hkeeps hw name encoding⟩ }
  have hworld : ((Step.render name encoding vars).answer r s).2.world =
      (r.renderFileIn encoding name vars).worldAfter s := by
    unfold Step.answer Rendering.worldAfter
    dsimp only
    cases r.renderFileIn encoding name vars s <;> rfl
  rw [hworld]
  exact ((hloads.renderFileIn encoding name vars).worldAfter s (w := s.world) ⟨rfl, hs⟩).2

theorem compile_answer (name : Text) (encoding : Encoding) (s : Shared Workspace) :
    (Step.compile name encoding).answer r s =
      (.compiled (((r.load (r.resolve name) encoding s.world).1.map Loaded.program).mapError
        .template), { s with world := (r.load (r.resolve name) encoding s.world).2 }) := by
  unfold Step.answer compileFile
  dsimp only
  rcases r.load (r.resolve name) encoding s.world with ⟨_ | _, _⟩ <;> rfl

/-- A step is answered as is due, changes files only by editing them, and what is remembered
afterwards is recalled. -/
theorem answer_due {trees : List FileTree} (hcache : r.cacheDir = none)
    (htrees : FileTree.TellChanges trees) {s : Shared Workspace} (hs : Recalls trees s.world)
    (hfiles : s.world.files ∈ trees) (step : Step) :
    (step.answer r s).1.Due r SamePath s.world.files step ∧
      (step.answer r s).2.world.files = step.files s.world.files ∧
      Recalls trees (step.answer r s).2.world := by
  cases step with
  | edit e => exact ⟨.edited, rfl, hs.of_programs rfl⟩
  | compile name encoding =>
      rw [compile_answer]
      obtain ⟨hcurrent, hrecalls, hsame⟩ :=
        hs.load hcache htrees hfiles (r.resolve name) encoding
      refine ⟨?_, hsame, hrecalls⟩
      dsimp only
      generalize (r.load (r.resolve name) encoding s.world).1.map Loaded.program = result
        at hcurrent ⊢
      cases result with
      | error e => exact .refused hcurrent
      | ok p => exact .compiled (p := { p with name := r.resolve name }) hcurrent.1 hcurrent.2
  | render name encoding vars =>
      have hload {w : Workspace} (hw : w.files = s.world.files ∧ Recalls trees w) (name : Text)
          (encoding : Encoding) : (r.load (r.resolve name) encoding w).2.files = s.world.files ∧
            Recalls trees (r.load (r.resolve name) encoding w).2 := by
        obtain ⟨hsame, hrecalls⟩ := hw
        obtain ⟨-, hrecalls, hunchanged⟩ :=
          hrecalls.load hcache htrees (hsame ▸ hfiles) (r.resolve name) encoding
        exact ⟨hunchanged.trans hsame, hrecalls⟩
      have hkept := kept_renderFileIn (fun w => w.files = s.world.files ∧ Recalls trees w) hload
        (s := s) ⟨rfl, hs⟩ name encoding vars
      refine ⟨?_, hkept⟩
      unfold Step.answer
      dsimp only
      split <;> exact .rendered

theorem allDue_answers {trees : List FileTree} (hcache : r.cacheDir = none)
    (htrees : FileTree.TellChanges trees) {steps : List Step} {s : Shared Workspace}
    (hs : Recalls trees s.world) (hsteps : ∀ t ∈ Step.trees steps s.world.files, t ∈ trees) :
    Answer.AllDue r SamePath steps (Step.answers r steps s) s.world.files := by
  induction steps generalizing s with
  | nil => trivial
  | cons step steps ih =>
      have hfiles := hsteps _ List.mem_cons_self
      obtain ⟨hdue, hedited, hrecalls⟩ := answer_due hcache htrees hs hfiles step
      refine ⟨hdue, ?_⟩
      rw [← hedited]
      refine ih hrecalls fun t ht => hsteps t (List.mem_cons_of_mem _ ?_)
      rwa [← hedited]

/-- Steps have the same answers in workspaces that differ in their counts. -/
theorem answers_stats (hcache : r.cacheDir = none) (steps : List Step) (heap : Heap)
    (w : Workspace) (stats : CacheStats) :
    Step.answers r steps ⟨heap, { w with stats := stats }⟩ = Step.answers r steps ⟨heap, w⟩ := by
  induction steps generalizing heap w stats with
  | nil => rfl
  | cons step steps ih =>
      have hstep : ∃ heap' w' stats',
          (step.answer r ⟨heap, { w with stats := stats }⟩).1 = (step.answer r ⟨heap, w⟩).1 ∧
            (step.answer r ⟨heap, w⟩).2 = ⟨heap', w'⟩ ∧
            (step.answer r ⟨heap, { w with stats := stats }⟩).2 =
              ⟨heap', { w' with stats := stats' }⟩ := by
        cases step with
        | edit e => exact ⟨heap, _, stats, rfl, rfl, rfl⟩
        | compile name encoding =>
            have hanswers := (loadsAlike_stats hcache).answers ⟨stats, rfl⟩ name encoding (w := w)
            obtain ⟨stats', hkeeps⟩ :=
              (loadsAlike_stats hcache).keeps ⟨stats, rfl⟩ name encoding (w := w)
            rw [compile_answer, compile_answer]
            refine ⟨heap, _, stats', ?_, rfl, ?_⟩
            · dsimp only
              rw [hanswers]
            · dsimp only
              rw [hkeeps]
        | render name encoding vars =>
            have h := (loadsAlike_stats hcache).renderFileIn encoding name vars ⟨heap, ()⟩ w
              { w with stats := stats } ⟨stats, rfl⟩
            change Alike.Outcome _ _ (r.renderFileIn encoding name vars ⟨heap, w⟩)
              (r.renderFileIn encoding name vars ⟨heap, { w with stats := stats }⟩) at h
            unfold Step.answer
            dsimp only
            generalize r.renderFileIn encoding name vars ⟨heap, w⟩ = found at h ⊢
            generalize r.renderFileIn encoding name vars ⟨heap, { w with stats := stats }⟩ =
              found' at h ⊢
            cases h with
            | @ok _ t v _ hw =>
                obtain ⟨stats', rfl⟩ := hw
                exact ⟨t.heap, v, stats', rfl, rfl, rfl⟩
            | @error _ t v _ hw =>
                obtain ⟨stats', rfl⟩ := hw
                exact ⟨t.heap, v, stats', rfl, rfl, rfl⟩
      obtain ⟨heap', w', stats', hanswer, hstate, hstate'⟩ := hstep
      rw [Step.answers, Step.answers, hanswer, hstate, hstate', ih]

/-- A page that was compiled fails only with an error of its run. -/
theorem render_error {host : Host Workspace} {site : Site} {vars : Entries Value} {p : Program}
    {s t : Shared Workspace} {error : TemplateError}
    (h : p.render host site vars s = .error (.template error) t) : ∃ f, error = .runtime f := by
  unfold Program.render at h
  split at h
  · exact nomatch h
  · injection h with herror _
    injection herror with herror
    exact ⟨_, herror.symm⟩
  · injection h with herror _
    exact nomatch herror

theorem settle_self (heap : Heap) : heap.settle heap = heap := by
  unfold Heap.settle
  split <;> rfl

/-- A step whose file could not be compiled leaves everything but the counts as it is. -/
theorem state_of_refused (hcache : r.cacheDir = none) {step : Step} {s : Shared Workspace}
    (h : (step.answer r s).1.Refused) :
    ∃ stats, s = { (step.answer r s).2 with
      world := { (step.answer r s).2.world with stats := stats } } := by
  cases step with
  | edit e => exact nomatch h
  | compile name encoding =>
      rw [compile_answer] at h ⊢
      have herror : ∃ error, (r.load (r.resolve name) encoding s.world).1 = .error error := by
        cases hload : (r.load (r.resolve name) encoding s.world).1 with
        | error e => exact ⟨e, rfl⟩
        | ok loaded =>
            rw [hload] at h
            exact nomatch h
      obtain ⟨error, herror⟩ := herror
      obtain ⟨stats, hstats⟩ := load_state_of_error hcache herror
      exact ⟨stats, congrArg (Shared.mk s.heap) hstats⟩
  | render name encoding vars =>
      have hanswer : (Step.render name encoding vars).answer r s =
          match settled (r.renderWith r.host encoding (.file name) vars) s with
          | .ok output t => (.rendered (.ok output), t)
          | .error failure t => (.rendered (.error failure), t) := rfl
      rw [hanswer] at h ⊢
      unfold settled at h ⊢
      rw [renderWith_file] at h ⊢
      generalize hload : r.load (r.resolve name) encoding s.world = found at h ⊢
      obtain ⟨found, w⟩ := found
      cases found with
      | error error =>
          obtain ⟨stats, hstats⟩ := load_state_of_error hcache (congrArg Prod.fst hload)
          rw [hload] at hstats
          dsimp only at hstats ⊢
          rw [settle_self]
          exact ⟨stats, congrArg (Shared.mk s.heap) hstats⟩
      | ok loaded =>
          dsimp only at h
          generalize hrender : loaded.program.render r.host r.site vars { s with world := w } =
            result at h
          cases result with
          | ok output t => exact nomatch h
          | error failure t =>
              cases h with
              | rendered hruntime =>
                  obtain ⟨f, hf⟩ := render_error hrender
                  exact absurd hf (hruntime f)

end Steps

/-- What the times of some files tell: one letter each, and a tag that is never closed. -/
def letterAt (stamp : Nat) : Bytes :=
  if stamp = 10 then [0x61] else if stamp = 20 then [0x3C, 0x25] else [0x62]

/-- A page that is changed, broken, mended and put back, and a file that is missing. -/
def mending : List Step :=
  [.edit (.write "a.html" (letterAt 10) 10), .compile "a.html" .utf8, .render "a.html" .latin1 [],
    .edit (.write "a.html" (letterAt 20) 20), .compile "a.html" .utf8,
    .edit (.write "a.html" (letterAt 30) 30), .compile "b.html" .utf8, .compile "a.html" .utf8,
    .edit (.write "a.html" (letterAt 10) 10), .compile "a.html" .utf8]

/-- A file that is asked for under two spellings of its path. -/
def respelled : List Step :=
  [.edit (.write "pages/a.html" [0x61] 10), .compile "pages/a.html" .utf8,
    .compile "pages//a.html" .utf8]

/-- The workspace with that file. -/
def lettered : Workspace := .ofFiles (FileTree.fresh.write "pages/a.html" [0x61] 10) 0

/-- What is remembered of that file. -/
def letter : Loaded where
  stamp := some 10
  encoding := .utf8
  program := ⟨"pages/a.html", "__buffer_append(\"\"\"a\"\"\")\n",
    [.at 1 (.expr (.call (.name "__buffer_append") [.constant (.str "a")] []))], [1]⟩
  number := 0

theorem load_lettered : bare.load "pages/a.html" .utf8 lettered =
    (.ok letter, Workspace.remember "pages/a.html" letter { lettered with stats := ⟨0, 1⟩ }) := by
  have hread : bare.load "pages/a.html" .utf8 lettered =
      bare.read "pages/a.html" .utf8 lettered := rfl
  have hfile : Source.ofFile lettered.files "pages/a.html" .utf8 =
      .ok ⟨"a", some "pages/a.html".toList, some 10, .utf8⟩ := rfl
  have hcompile : (Source.mk "a" (some "pages/a.html".toList) (some 10) .utf8).compile =
      .ok letter.program := by cbv
  rw [hread, read_eq_of_uncached rfl, hfile]
  dsimp only
  rw [hcompile]
  rfl

end Renderer

end TemplateEngine
