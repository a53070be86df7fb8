import TemplateEngine.Proofs.Artifact.Transparency
import TemplateEngine.Proofs.Template.Program
import TemplateEngine.Render.Renderer

/-!
# Programs of files

A renderer that keeps programs in a directory gives for a file the program of what the
file holds now, if every file is asked for under one name and in one encoding, and if
its times tell its changes. The encoding matters: what is kept says of which template
it is, but not in which encoding that was read.
-/
namespace TemplateEngine.Renderer

/-- A file asked for: what has happened to the files since the last one, the time, the path and
the encoding. -/
structure Visit where
  change : FileTree → FileTree
  now : Nat
  path : Text
  encoding : Encoding

/-- A file that was found when it was asked for. -/
structure Sighting where
  path : Text
  encoding : Encoding
  bytes : Bytes
  stamp : Nat

namespace Visit

/-- The workspace that a visit finds. -/
def found (v : Visit) (w : Workspace) : Workspace :=
  { w with files := v.change w.files, now := v.now }

/-- What a renderer answers to a visit, and the workspace it leaves. -/
def answer (r : Renderer) (v : Visit) (w : Workspace) : Except TemplateError Loaded × Workspace :=
  r.load v.path v.encoding (v.found w)

/-- The program of what the file of a visit holds, compiled anew. -/
def current (v : Visit) (w : Workspace) : Except TemplateError Program :=
  match Source.ofFile (v.found w).files v.path v.encoding with
  | .ok source => source.compile
  | .error error => .error error

/-- The file of a visit, if there is one. -/
def sightings (v : Visit) (w : Workspace) : List Sighting :=
  match (v.found w).files.read v.path, (v.found w).files.stamp v.path with
  | .ok bytes, .ok stamp => [⟨v.path, v.encoding, bytes, stamp⟩]
  | _, _ => []

/-- A file that was seen before is asked for under the same name and in the same encoding, has the
same bytes if it has the same time, and otherwise a time no earlier than that of anything kept. -/
structure Consistent (dir : Text) (v : Visit) (w : Workspace) (seen : Sighting) : Prop where
  path : v.path = seen.path
  encoding : v.encoding = seen.encoding
  bytes : (v.found w).files.stamp v.path = .ok seen.stamp →
    (v.found w).files.read v.path = .ok seen.bytes
  stamp : ∀ bytes stamp, (v.found w).files.read v.path = .ok bytes →
    (v.found w).files.stamp v.path = .ok stamp → bytes ≠ seen.bytes →
      ∀ s, DirectoryStore.Holds dir (v.found w).files s → s.stamp ≤ stamp

/-- A visit finds nothing new in the directory of the cache, a source whose program can be kept, and
a file consistent with those that were seen at the same place. -/
structure Orderly (dir : Text) (earlier : List Sighting) (v : Visit) (w : Workspace) : Prop where
  held : ∀ s, DirectoryStore.Holds dir (v.found w).files s → DirectoryStore.Holds dir w.files s
  portable : ∀ source, Source.ofFile (v.found w).files v.path v.encoding = .ok source →
    source.Portable
  consistent : ∀ seen ∈ earlier, Path.key v.path = Path.key seen.path → v.Consistent dir w seen

/-- Visits that are orderly one after another. -/
def AllOrderly (r : Renderer) (dir : Text) : List Sighting → List Visit → Workspace → Prop
  | _, [], _ => True
  | earlier, v :: visits, w =>
    v.Orderly dir earlier w ∧ AllOrderly r dir (v.sightings w ++ earlier) visits (v.answer r w).2

/-- Every program that is answered is the current one. -/
def AllCurrent (r : Renderer) : List Visit → Workspace → Prop
  | [], _ => True
  | v :: visits, w =>
    (∀ loaded, (v.answer r w).1 = .ok loaded → v.current w = .ok loaded.program) ∧
      AllCurrent r visits (v.answer r w).2

end Visit

/-- The source that a file was when it was seen. -/
def Sighting.source? (seen : Sighting) : Option Source :=
  (seen.encoding.decode? seen.bytes).map fun text =>
    ⟨text, some seen.path, some seen.stamp, seen.encoding⟩

/-- The sources of the files seen. -/
def sources (earlier : List Sighting) : List Source := earlier.filterMap Sighting.source?

/-- Where a renderer stands after some files were seen: what it remembers, and what is kept, are
programs of those. -/
structure Stands (dir : Text) (earlier : List Sighting) (w : Workspace) : Prop where
  remembered : ∀ key loaded, w.programs.lookup key = some loaded →
    ∃ seen ∈ earlier, ∃ source, seen.source? = some source ∧ Path.key seen.path = key ∧
      loaded.stamp = some seen.stamp ∧ source.compile = .ok loaded.program
  kept : ∀ s, DirectoryStore.Holds dir w.files s → CacheCall.StoredFor (sources earlier) s

section Step

variable {r : Renderer} {dir : Text} {earlier : List Sighting} {w : Workspace} {v : Visit}

theorem Stands.of_found (h : Stands dir earlier w) {more : List Sighting} {w' : Workspace}
    (hprograms : w'.programs = w.programs)
    (hfiles : ∀ s, DirectoryStore.Holds dir w'.files s → DirectoryStore.Holds dir w.files s) :
    Stands dir (more ++ earlier) w' where
  remembered := by
    intro key loaded hloaded
    obtain ⟨seen, hseen, hrest⟩ := h.remembered key loaded (hprograms ▸ hloaded)
    exact ⟨seen, List.mem_append_right _ hseen, hrest⟩
  kept := by
    intro s hs
    obtain ⟨source, hsource, hrest⟩ := h.kept s (hfiles s hs)
    refine ⟨source, ?_, hrest⟩
    rw [sources, List.filterMap_append]
    exact List.mem_append_right _ hsource

/-- The source read from a file is the one of its sighting. -/
theorem source?_of_ofFile {files : FileTree} {path : Text} {encoding : Encoding} {source : Source}
    {stamp : Nat} (hstamp : files.stamp path = .ok stamp)
    (h : Source.ofFile files path encoding = .ok source) :
    ∃ bytes, files.read path = .ok bytes ∧
      (Sighting.mk path encoding bytes stamp).source? = some source := by
  unfold Source.ofFile at h
  split at h
  · cases h
  · rename_i bytes hread
    refine ⟨bytes, hread, ?_⟩
    unfold Source.ofBytes at h
    unfold Sighting.source?
    split at h
    · rename_i text htext
      obtain rfl := Except.ok.inj h
      rw [htext, hstamp]
      rfl
    · cases h

/-- A file whose source was another when it was seen has a time no earlier than that of anything
kept. -/
theorem stamp_le_of_consistent
    (hconsistent : ∀ seen ∈ earlier, Path.key v.path = Path.key seen.path →
      v.Consistent dir w seen)
    {bytes : Bytes} {stamp : Nat} {source : Source}
    (hread : (v.found w).files.read v.path = .ok bytes)
    (hstamp : (v.found w).files.stamp v.path = .ok stamp)
    (hsource : (Sighting.mk v.path v.encoding bytes stamp).source? = some source) :
    ∀ other ∈ sources earlier, ∀ identity, other.identity = some identity →
      source.identity = some identity → other.text ≠ source.text →
        ∀ time, source.stamp = some time →
          ∀ s, DirectoryStore.Holds dir (v.found w).files s → s.stamp ≤ time := by
  intro other hother identity hidentity hidentity' htext time htime s hs
  obtain ⟨seen, hseen, hseenSource⟩ := List.mem_filterMap.mp hother
  obtain ⟨text, hdecoded, rfl⟩ := Option.map_eq_some_iff.mp hsource
  obtain ⟨text', hdecoded', rfl⟩ := Option.map_eq_some_iff.mp hseenSource
  have hpath : v.path = seen.path := Option.some.inj (hidentity'.trans hidentity.symm)
  have hseenConsistent := hconsistent seen hseen (congrArg Path.key hpath)
  have hbytes : bytes ≠ seen.bytes := by
    rintro rfl
    change v.encoding.decode? seen.bytes = some text at hdecoded
    rw [hseenConsistent.encoding, hdecoded'] at hdecoded
    exact htext (Option.some.inj hdecoded)
  obtain rfl : stamp = time := Option.some.inj htime
  exact hseenConsistent.stamp bytes stamp hread hstamp hbytes s hs

/-- The call of its cache by which a renderer gets the program of a source. -/
def call (w : Workspace) (source : Source) : CacheCall :=
  ⟨some ArtifactCache.defaultFormat, w.stats, w.now, source⟩

/-- The workspace after the cache was called for a source. -/
def called (dir : Text) (w : Workspace) (source : Source) : Workspace :=
  { w with
    stats := (((call w source).cache (DirectoryStore.store dir)).compile w.now source w.stats
      w.files).2.1
    files := (call w source).after (DirectoryStore.store dir) w.files }

/-- What a renderer remembers of a file whose source has a program. -/
def loaded (encoding : Encoding) (w : Workspace) (source : Source) (program : Program) : Loaded :=
  ⟨source.stamp, encoding, program, w.loads⟩

theorem read_of_ofFile (hdir : r.cacheDir = some dir) {path : Text} {encoding : Encoding}
    {source : Source} (hfile : Source.ofFile w.files path encoding = .ok source) :
    r.read path encoding w =
      match (call w source).result (DirectoryStore.store dir) w.files with
      | .error error => (.error error, called dir w source)
      | .ok program => (.ok (loaded encoding w source program),
          (called dir w source).remember path (loaded encoding w source program)) := by
  have hcache : r.cache = (call w source).cache (DirectoryStore.store dir) := by
    unfold cache
    rw [hdir]
    rfl
  unfold read
  rw [hfile, hcache]
  rfl

/-- Reading a file answers with its current program, and what is remembered and kept afterwards
are programs of files that were seen. -/
theorem read_current (hdir : r.cacheDir = some dir) (hstands : Stands dir earlier w)
    (hv : v.Orderly dir earlier w) {stamp : Nat} (hstamp : (v.found w).files.stamp v.path = .ok stamp) :
    (∀ found, (r.read v.path v.encoding (v.found w)).1 = .ok found →
        v.current w = .ok found.program) ∧
      Stands dir (v.sightings w ++ earlier) (r.read v.path v.encoding (v.found w)).2 := by
  unfold Visit.current
  cases hfile : Source.ofFile (v.found w).files v.path v.encoding with
  | error error =>
      unfold read
      rw [hfile]
      exact ⟨fun _ h => (nomatch h), hstands.of_found rfl hv.held⟩
  | ok source =>
      obtain ⟨bytes, hread, hsource⟩ := source?_of_ofFile hstamp hfile
      have hsightings : v.sightings w = [⟨v.path, v.encoding, bytes, stamp⟩] := by
        unfold Visit.sightings
        rw [hread, hstamp]
      have hsources : sources (v.sightings w ++ earlier) = source :: sources earlier := by
        rw [hsightings, sources, List.cons_append, List.filterMap_cons, hsource]
        rfl
      have hheld := DirectoryStore.heldBy dir
      have hkept : ∀ s, DirectoryStore.Holds dir (v.found w).files s →
          CacheCall.StoredFor (sources earlier) s := fun s hs => hstands.kept s (hv.held s hs)
      have hresult : (call (v.found w) source).result (DirectoryStore.store dir)
          (v.found w).files = source.compile :=
        CacheCall.result_eq_compile hheld hkept
          (stamp_le_of_consistent hv.consistent hread hstamp hsource)
      have hafter : ∀ s, DirectoryStore.Holds dir (called dir (v.found w) source).files s →
          CacheCall.StoredFor (sources (v.sightings w ++ earlier)) s := by
        rw [hsources]
        exact CacheCall.storedFor_after hheld hkept (hv.portable source hfile)
      have hbefore : Stands dir (v.sightings w ++ earlier) (called dir (v.found w) source) :=
        ⟨(hstands.of_found rfl fun _ hs => hs).remembered, hafter⟩
      rw [read_of_ofFile hdir hfile, hresult]
      cases hcompile : source.compile with
      | error error => exact ⟨fun _ h => (nomatch h), hbefore⟩
      | ok program =>
          refine ⟨fun found hfound => ?_, ⟨fun key found hfound => ?_, hafter⟩⟩
          · obtain rfl := Except.ok.inj hfound
            exact hcompile
          · change List.lookup key ((Path.key v.path, loaded v.encoding (v.found w) source program) ::
              _) = some found at hfound
            rw [List.lookup_cons] at hfound
            split at hfound
            · rename_i hkey
              obtain rfl := Option.some.inj hfound
              refine ⟨⟨v.path, v.encoding, bytes, stamp⟩, ?_, source, hsource,
                (eq_of_beq hkey).symm, ?_, hcompile⟩
              · rw [hsightings]
                exact List.mem_append_left _ List.mem_cons_self
              · obtain ⟨text, -, rfl⟩ := Option.map_eq_some_iff.mp hsource
                rfl
            · exact hbefore.remembered key found (lookup_of_lookup_filter hfound)

/-- A visit is answered with the current program, and what is remembered and kept afterwards are
programs of files that were seen. -/
theorem answer_current (hdir : r.cacheDir = some dir) (hstands : Stands dir earlier w)
    (hv : v.Orderly dir earlier w) :
    (∀ found, (v.answer r w).1 = .ok found → v.current w = .ok found.program) ∧
      Stands dir (v.sightings w ++ earlier) (v.answer r w).2 := by
  unfold Visit.answer load
  cases hstamp : (v.found w).files.stamp v.path with
  | error cause => exact ⟨fun _ h => (nomatch h), hstands.of_found rfl hv.held⟩
  | ok stamp =>
      have hread := read_current hdir hstands hv hstamp
      dsimp only
      split
      · rename_i remembered hremembered
        split
        · rename_i hsame
          refine ⟨fun found hfound => ?_, hstands.of_found rfl hv.held⟩
          obtain rfl := Except.ok.inj hfound
          obtain ⟨seen, hseen, source, hsource, hkey, hseenStamp, hcompile⟩ :=
            hstands.remembered _ _ hremembered
          rw [Bool.and_eq_true, decide_eq_true_iff, decide_eq_true_iff] at hsame
          have hseenConsistent := hv.consistent seen hseen hkey.symm
          have htime : stamp = seen.stamp := Option.some.inj (hsame.1.symm.trans hseenStamp)
          rw [htime] at hstamp
          have hbytes := hseenConsistent.bytes hstamp
          obtain ⟨text, hdecoded, rfl⟩ := Option.map_eq_some_iff.mp hsource
          unfold Visit.current Source.ofFile Source.ofBytes
          rw [hbytes, hseenConsistent.encoding]
          dsimp only
          rw [hdecoded, hstamp, hseenConsistent.path]
          exact hcompile
        · exact hread
      · exact hread

end Step

/-- A renderer that keeps programs in a directory. -/
def keeping : Renderer := ⟨none, some "cache", ⟨[], none⟩, .utf8⟩

/-- A file of two bytes, which are one character in one encoding and two in another. -/
def accented : FileTree := FileTree.fresh.write "page.html" [0xC3, 0xA9] 1000000000

/-- The file is asked for in an encoding. -/
def visitIn (encoding : Encoding) : Visit := ⟨id, 2000000000, "page.html", encoding⟩

/-- What the file holds, in the encoding of one character. -/
def oneCharacter : Source :=
  ⟨[Char.ofNat 0xE9], some "page.html".toList, some 1000000000, .utf8⟩

/-- What the file holds, in the encoding of two characters. -/
def twoCharacters : Source :=
  ⟨[Char.ofNat 0xC3, Char.ofNat 0xA9], some "page.html".toList, some 1000000000, .latin1⟩

/-- The program that appends a text. -/
def appending (t : Text) : Program :=
  ⟨"page.html", "__buffer_append(\"\"\"".toList ++ t ++ "\"\"\")\n".toList,
    [.at 1 (.expr (.call (.name "__buffer_append") [.constant (.str t)] []))], [1]⟩

theorem compile_of_generated {source : Source} {t : Text} {g : Generated}
    (hvalid : Outline.Valid [.text t]) (hwritten : Outline.written [.text t] = source.text)
    (hg : Generated.ofTemplate source.text = .ok g) :
    source.compile = .ok ⟨source.name, g.source,
      [.at 1 (.expr (.call (.name "__buffer_append") [.constant (.str t)] []))], g.lineMap⟩ := by
  obtain ⟨p, hp, -, hbody, -⟩ :=
    Outline.program_written source.name hvalid (Nat.zero_le Parser.maxBlockDepth)
  rw [hwritten] at hp
  rw [Source.compile, hp]
  unfold Program.ofTemplate at hp
  rw [hg] at hp
  dsimp only at hp
  split at hp
  · cases hp
  · obtain rfl := Except.ok.inj hp
    exact congrArg (fun body => Except.ok (Program.mk _ _ body _)) hbody

theorem compile_oneCharacter :
    oneCharacter.compile = .ok (appending [Char.ofNat 0xE9]) :=
  compile_of_generated (g := ⟨_, _⟩) (by simp [Outline.Valid, Outline.Item.Valid]) rfl rfl

theorem compile_twoCharacters :
    twoCharacters.compile = .ok (appending [Char.ofNat 0xC3, Char.ofNat 0xA9]) :=
  compile_of_generated (g := ⟨_, _⟩) (by simp [Outline.Valid, Outline.Item.Valid]) rfl rfl

theorem decode?_encode_appending (t : Text) :
    Artifact.decode? (Artifact.encode ⟨ArtifactCache.defaultFormat, appending t⟩) =
      some ⟨ArtifactCache.defaultFormat, appending t⟩ := by
  have hkeeps : ∀ c ∈ (appending t).constants, c.Keeps := by
    show ∀ c ∈ [Constant.str t], c.Keeps
    intro c hc
    rw [List.mem_singleton.mp hc]
    exact trivial
  have hlines : LinesFit (appending t).lines := by
    show LinesFit [1, 1]
    unfold LinesFit
    decide
  have hdepth : Json.depth (Artifact.toJson ⟨ArtifactCache.defaultFormat, appending t⟩) = 10 := rfl
  rw [Artifact.decode?_encode_eq _ hkeeps hlines, hdepth]
  rfl

/-- The workspace in which the file is there and nothing was asked for. -/
def untouched : Workspace := .ofFiles accented 2000000000

/-- The workspace after the file was asked for, with its program and what is kept of it. -/
def visited (program : Program) (bytes : Bytes) : Workspace where
  files := accented.writeInto "cache"
    (DirectoryStore.fileName "page.html" ArtifactCache.defaultFormat) bytes 2000000000
  now := 2000000000
  programs := [(Path.key "page.html", ⟨some 1000000000, .utf8, program, 0⟩)]
  stats := ⟨0, 1⟩
  loads := 1

theorem answer_untouched {program : Program} (hprogram : oneCharacter.compile = .ok program) :
    (visitIn .utf8).answer keeping untouched =
      (.ok ⟨some 1000000000, .utf8, program, 0⟩,
        visited program (Artifact.encode ⟨ArtifactCache.defaultFormat, program⟩)) := by
  have hread : (visitIn .utf8).answer keeping untouched =
      keeping.read "page.html" .utf8 untouched := rfl
  have hfile : Source.ofFile untouched.files "page.html" .utf8 = .ok oneCharacter := rfl
  have hfind : keeping.cache.find? oneCharacter untouched.files = none := rfl
  have hcompile : keeping.cache.compile untouched.now oneCharacter untouched.stats
      untouched.files = (.ok program, ⟨0, 1⟩,
        (visited program (Artifact.encode ⟨ArtifactCache.defaultFormat, program⟩)).files) := by
    unfold ArtifactCache.compile
    rw [hfind, hprogram]
    rfl
  rw [hread]
  unfold read
  rw [hfile]
  dsimp only
  rw [hcompile]
  rfl

theorem portable_oneCharacter : oneCharacter.Portable := by
  intro p hp
  obtain rfl := Except.ok.inj (compile_oneCharacter.symm.trans hp)
  refine ⟨?_, fun x hx => ?_⟩
  · show LinesFit [1, 1]
    unfold LinesFit
    decide
  · change Constant.float x ∈ [.str [Char.ofNat 0xE9]] at hx
    exact nomatch List.mem_singleton.mp hx

theorem read_visited (program : Program) (bytes : Bytes) :
    (visited program bytes).files.read "page.html" = .ok [0xC3, 0xA9] ∧
      Source.ofFile (visited program bytes).files "page.html" .utf8 = .ok oneCharacter :=
  ⟨rfl, rfl⟩

theorem orderly_visited (program : Program) (bytes : Bytes) :
    (visitIn .utf8).Orderly "cache" [⟨"page.html", .utf8, [0xC3, 0xA9], 1000000000⟩]
      (visited program bytes) := by
  obtain ⟨hread, hfile⟩ := read_visited program bytes
  refine ⟨fun s hs => hs, fun source hsource => ?_, fun seen hseen _ => ?_⟩
  · obtain rfl := Except.ok.inj (hfile.symm.trans hsource)
    exact portable_oneCharacter
  · obtain rfl := List.mem_singleton.mp hseen
    refine ⟨rfl, rfl, fun _ => hread, fun other stamp hother _ hne => ?_⟩
    exact absurd (Except.ok.inj (hother.symm.trans hread)) hne

theorem answer_visited (program : Program) {bytes : Bytes} {kept : Program}
    (hbytes : Artifact.decode? bytes = some ⟨ArtifactCache.defaultFormat, kept⟩)
    (hname : kept.name = "page.html".toList) :
    ∃ w, (visitIn .latin1).answer keeping (visited program bytes) =
      (.ok ⟨some 1000000000, .latin1, kept, 1⟩, w) := by
  have hstamp : (visited program bytes).files.stamp "page.html" = .ok 1000000000 := rfl
  have hremembered : (visited program bytes).remembered? "page.html" =
      some ⟨some 1000000000, .utf8, program, 0⟩ := rfl
  have hread : (visitIn .latin1).answer keeping (visited program bytes) =
      keeping.read "page.html" .latin1 (visited program bytes) := by
    show load keeping "page.html" .latin1 (visited program bytes) = _
    unfold load
    rw [hstamp]
    dsimp only
    rw [hremembered]
    exact if_neg (by simp)
  have hfile : Source.ofFile (visited program bytes).files "page.html" .latin1 =
      .ok twoCharacters := rfl
  have hfind : keeping.cache.find? twoCharacters (visited program bytes).files = some kept := by
    have hfresh : keeping.cache.find? twoCharacters (visited program bytes).files =
        ArtifactCache.fresh? ArtifactCache.defaultFormat "page.html" 1000000000
          ⟨2000000000, bytes⟩ := rfl
    rw [hfresh, ArtifactCache.fresh?, if_neg (show ¬ 2000000000 ≤ 1000000000 by decide)]
    dsimp only
    rw [hbytes]
    simp [hname]
  rw [hread]
  unfold read
  rw [hfile]
  dsimp only
  unfold ArtifactCache.compile
  rw [hfind]
  exact ⟨_, rfl⟩

theorem current_visited (program : Program) (bytes : Bytes) :
    (visitIn .latin1).current (visited program bytes) = twoCharacters.compile := by
  have hfound : (visitIn .latin1).found (visited program bytes) = visited program bytes := rfl
  have hfile : Source.ofFile (visited program bytes).files "page.html" .latin1 =
      .ok twoCharacters := rfl
  unfold Visit.current
  rw [hfound]
  change (match Source.ofFile (visited program bytes).files "page.html" .latin1 with
    | .ok source => source.compile
    | .error error => .error error) = _
  rw [hfile]

end TemplateEngine.Renderer
