import Mathlib
import TemplateEngine.Artifact.Cache
import TemplateEngine.Proofs.Artifact.RoundTrip
import TemplateEngine.Proofs.Files.Tree
import TemplateEngine.Proofs.Syntax.Integers

/-!
# Caches that do not show

Caches of any formats over one store that is empty at first give what compilation
gives. Whatever the store holds was compiled for the identity that its program names,
so what is read as an artifact of the right format and identity is the program of an
earlier text of that identity. It is newer than the source only if that text is still
the one.
-/
namespace TemplateEngine

/-- Gives for each state of a store what it holds: all that can be loaded from it, now or after
more is saved. -/
structure ArtifactStore.HeldBy {σ : Type} (store : ArtifactStore σ) (Holds : σ → Stored → Prop) :
    Prop where
  load : ∀ {identity format : Text} {kept : σ} {s : Stored},
    store.load identity format kept = some s → Holds kept s
  save : ∀ {now : Nat} {identity format : Text} {bytes : Bytes} {kept : σ} {s : Stored},
    Holds (store.save now identity format bytes kept) s → s = ⟨now, bytes⟩ ∨ Holds kept s

namespace MemoryStore

/-- Something is kept in memory under some identity and format. -/
def Holds (entries : MemoryStore) (s : Stored) : Prop := ∃ key, (key, s) ∈ entries

theorem heldBy : store.HeldBy Holds where
  load := by
    intro identity format entries s h
    obtain ⟨before, after, rfl, -⟩ := List.lookup_eq_some_iff.mp h
    exact ⟨(identity, format), List.mem_append_right _ List.mem_cons_self⟩
  save := by
    intro now identity format bytes entries s h
    obtain ⟨key, hkey⟩ := h
    rcases List.mem_cons.mp hkey with heq | hmem
    · exact .inl (Prod.mk.inj heq).2
    · exact .inr ⟨key, (List.mem_filter.mp hmem).1⟩

end MemoryStore

namespace DirectoryStore

/-- Something is kept as a file of the directory, under whatever name. -/
def Holds (dir : Text) (files : FileTree) (s : Stored) : Prop :=
  ∃ name, files.node? (files.directory dir ++ [name]) = some (.file s.bytes s.stamp)

theorem not_mem_sanitize {c : Char} (halphanum : c.isAlphanum = false) (hc : c ∉ ['-', '.', '_'])
    (t : Text) : c ∉ sanitize t := by
  intro hmem
  obtain ⟨d, -, hd⟩ := List.mem_map.mp hmem
  simp only [List.mem_cons, List.not_mem_nil, or_false, not_or] at hc
  split at hd
  · rename_i hkept
    subst hd
    simp [halphanum, hc.1, hc.2.1] at hkept
  · exact hc.2.2 hd.symm

theorem isName_fileName (identity format : Text) : Path.IsName (fileName identity format) := by
  have hlength : 6 ≤ (fileName identity format).length := by
    simp [fileName]
    omega
  refine ⟨?_, ?_, ?_, ?_⟩
  · have hidentity := not_mem_sanitize (c := '/') rfl (by decide) identity
    have hformat := not_mem_sanitize (c := '/') rfl (by decide) format
    simp [fileName, hidentity, hformat]
  · intro h
    rw [h] at hlength
    exact absurd hlength (by decide)
  · intro h
    rw [h] at hlength
    exact absurd hlength (by decide)
  · intro h
    rw [h] at hlength
    exact absurd hlength (by decide)

theorem heldBy (dir : Text) : (store dir).HeldBy (Holds dir) where
  load := by
    intro identity format files s h
    change load dir identity format files = some s at h
    unfold load at h
    split at h
    · rename_i stamp bytes hstamp hread
      obtain rfl := Option.some.inj h
      have hfile := FileTree.file_of_stamp_of_read hstamp hread
      rw [path, FileTree.target_join _ _ (isName_fileName identity format)] at hfile
      exact ⟨_, hfile⟩
    · exact nomatch h
  save := by
    intro now identity format bytes files s h
    change Holds dir (files.writeInto dir (fileName identity format) bytes now) s at h
    obtain ⟨name, hname⟩ := h
    rw [FileTree.directory_writeInto] at hname
    rcases FileTree.file_writeInto hname with ⟨hbytes, hstamp⟩ | hfile
    · exact .inl (by rw [← hbytes, ← hstamp])
    · exact .inr ⟨name, hfile⟩

end DirectoryStore

/-- A source that can be compiled to a program whose lines are machine words, and whose finite
doubles are read back from their digits. -/
def Source.Portable (source : Source) : Prop :=
  ∀ p, source.compile = .ok p →
    LinesFit p.lines ∧ ∀ x, .float x ∈ p.constants → x.isFinite = true → Json.ReadsBack x

theorem Source.Portable.keeps {source : Source} (h : source.Portable) {p : Program}
    (hp : source.compile = .ok p) : ∀ c ∈ p.constants, c.Keeps := by
  have hfits : ConstantsFit p.constants := by
    rw [compile, Program.ofTemplate] at hp
    split at hp
    · exact nomatch hp
    · split at hp
      · exact nomatch hp
      · rename_i body hbody
        obtain rfl := Except.ok.inj hp
        exact fits_parseProgram hbody
  intro c hc
  cases c with
  | int n => exact hfits _ hc
  | float x => exact (h p hp).2 x hc
  | none | bool _ | str _ => exact trivial

theorem Source.name_of_compile {source : Source} {p : Program} (hp : source.compile = .ok p) :
    p.name = source.name := by
  rw [compile, Program.ofTemplate] at hp
  split at hp
  · exact nomatch hp
  · split at hp
    · exact nomatch hp
    · obtain rfl := Except.ok.inj hp
      rfl

/-- A call of a cache: the format of the cache, unless it keeps nothing, and its counts so far; the
time, and the source to compile. -/
structure CacheCall where
  format : Option Text
  stats : CacheStats
  now : Nat
  source : Source

namespace CacheCall

variable {σ : Type} (store : ArtifactStore σ)

/-- The cache that is called, over a store. -/
def cache (call : CacheCall) : ArtifactCache σ :=
  match call.format with
  | some format => ⟨some store, format⟩
  | none => .disabled

/-- What a call returns. -/
def result (call : CacheCall) (kept : σ) : Except TemplateError Program :=
  ((call.cache store).compile call.now call.source call.stats kept).1

/-- What is kept after a call. -/
def after (call : CacheCall) (kept : σ) : σ :=
  ((call.cache store).compile call.now call.source call.stats kept).2.2

/-- What calls return one after another. -/
def results : List CacheCall → σ → List (Except TemplateError Program)
  | [], _ => []
  | call :: calls, kept => call.result store kept :: results calls (call.after store kept)

/-- Changes can be told: where an earlier source had the identity of a call's source but another
text, the source has no stamp, or one not earlier than the stamps of all that is held then. -/
def Fair (Holds : σ → Stored → Prop) : List Source → List CacheCall → σ → Prop
  | _, [], _ => True
  | earlier, call :: calls, kept =>
    (∀ source ∈ earlier, ∀ identity, source.identity = some identity →
      call.source.identity = some identity → source.text ≠ call.source.text →
        ∀ stamp, call.source.stamp = some stamp → ∀ s, Holds kept s → s.stamp ≤ stamp) ∧
      Fair Holds (call.source :: earlier) calls (call.after store kept)

/-- What was stored for one of some sources: the bytes of an artifact of its program. -/
def StoredFor (sources : List Source) (s : Stored) : Prop :=
  ∃ source ∈ sources, ∃ identity format program, source.identity = some identity ∧
    source.Portable ∧ source.compile = .ok program ∧ s.bytes = Artifact.encode ⟨format, program⟩

variable {store} {Holds : σ → Stored → Prop}

theorem storedFor_cons {source : Source} {sources : List Source} {s : Stored}
    (h : StoredFor sources s) : StoredFor (source :: sources) s := by
  obtain ⟨other, hother, hrest⟩ := h
  exact ⟨other, List.mem_cons_of_mem _ hother, hrest⟩

theorem eq_of_cache {call : CacheCall} {used : ArtifactStore σ}
    (h : (call.cache store).store = some used) : used = store := by
  unfold cache at h
  split at h
  · exact (Option.some.inj h).symm
  · exact nomatch h

/-- A program that is found is the one that compilation gives. -/
theorem compile_of_find? (hstore : store.HeldBy Holds) {earlier : List Source} {kept : σ}
    (hkept : ∀ s, Holds kept s → StoredFor earlier s) {call : CacheCall}
    (hfair : ∀ source ∈ earlier, ∀ identity, source.identity = some identity →
      call.source.identity = some identity → source.text ≠ call.source.text →
        ∀ stamp, call.source.stamp = some stamp → ∀ s, Holds kept s → s.stamp ≤ stamp)
    {program : Program} (hfind : (call.cache store).find? call.source kept = some program) :
    call.source.compile = .ok program := by
  unfold ArtifactCache.find? at hfind
  simp only [Option.bind_eq_bind, Option.bind_eq_some_iff] at hfind
  obtain ⟨used, hused, identity, hidentity, stamp, hstamp, s, hload, hfresh⟩ := hfind
  obtain rfl := eq_of_cache hused
  have hheld := hstore.load hload
  obtain ⟨source, hsource, origin, format, compiled, horigin, hportable, hcompiled, hbytes⟩ :=
    hkept s hheld
  unfold ArtifactCache.fresh? at hfresh
  split at hfresh
  · exact nomatch hfresh
  rename_i hnewer
  split at hfresh
  · exact nomatch hfresh
  rename_i artifact hartifact
  split at hfresh
  · rename_i hmatches
    obtain rfl := Option.some.inj hfresh
    rw [Bool.and_eq_true, decide_eq_true_iff, decide_eq_true_iff] at hmatches
    rw [hbytes] at hartifact
    have hself := Artifact.decode?_encode_eq_self (hportable.keeps hcompiled)
      (hportable compiled hcompiled).1 hartifact
    have hname : compiled.name = origin := by
      rw [Source.name_of_compile hcompiled, Source.name, horigin]
      rfl
    have hsame : origin = identity := by
      rw [← hname, ← hmatches.2, hself]
    rw [hsame] at horigin
    have htext : source.text = call.source.text := by
      by_contra hother
      exact hnewer (hfair source hsource identity horigin hidentity hother stamp hstamp s hheld)
    rw [hself, ← hcompiled, Source.compile, Source.compile, htext, Source.name, Source.name,
      horigin, hidentity]
  · exact nomatch hfresh

theorem result_eq_compile (hstore : store.HeldBy Holds) {earlier : List Source} {kept : σ}
    (hkept : ∀ s, Holds kept s → StoredFor earlier s) {call : CacheCall}
    (hfair : ∀ source ∈ earlier, ∀ identity, source.identity = some identity →
      call.source.identity = some identity → source.text ≠ call.source.text →
        ∀ stamp, call.source.stamp = some stamp → ∀ s, Holds kept s → s.stamp ≤ stamp) :
    call.result store kept = call.source.compile := by
  unfold result ArtifactCache.compile
  split
  · exact (compile_of_find? hstore hkept hfair ‹_›).symm
  · split
    · exact Eq.symm ‹_›
    · exact Eq.symm ‹_›

/-- After a call the store holds what it held, and besides at most the artifact of the call's
source, with the time of the call. -/
theorem held_after (hstore : store.HeldBy Holds) {call : CacheCall} {kept : σ} {s : Stored}
    (hs : Holds (call.after store kept) s) :
    Holds kept s ∨ ∃ identity format program, call.source.identity = some identity ∧
      call.source.compile = .ok program ∧ s = ⟨call.now, Artifact.encode ⟨format, program⟩⟩ := by
  unfold after ArtifactCache.compile at hs
  split at hs
  · exact .inl hs
  · split at hs
    · exact .inl hs
    · rename_i program hprogram
      unfold ArtifactCache.keep at hs
      split at hs
      · rename_i used identity hused hidentity
        obtain rfl := eq_of_cache hused
        rcases hstore.save hs with rfl | hheld
        · exact .inr ⟨identity, _, program, hidentity, hprogram, rfl⟩
        · exact .inl hheld
      · exact .inl hs

theorem storedFor_after (hstore : store.HeldBy Holds) {earlier : List Source} {kept : σ}
    (hkept : ∀ s, Holds kept s → StoredFor earlier s) {call : CacheCall}
    (hportable : call.source.Portable) :
    ∀ s, Holds (call.after store kept) s → StoredFor (call.source :: earlier) s := by
  intro s hs
  rcases held_after hstore hs with hheld | ⟨identity, format, program, hidentity, hprogram, rfl⟩
  · exact storedFor_cons (hkept s hheld)
  · exact ⟨call.source, List.mem_cons_self, identity, format, program, hidentity, hportable,
      hprogram, rfl⟩

theorem results_eq_compile (hstore : store.HeldBy Holds) {calls : List CacheCall}
    {earlier : List Source} {kept : σ} (hkept : ∀ s, Holds kept s → StoredFor earlier s)
    (hportable : ∀ call ∈ calls, call.source.Portable) (hfair : Fair store Holds earlier calls kept) :
    results store calls kept = calls.map fun call => call.source.compile := by
  induction calls generalizing earlier kept with
  | nil => rfl
  | cons call calls ih =>
      obtain ⟨hnow, hlater⟩ := hfair
      have hafter := storedFor_after hstore hkept (hportable call List.mem_cons_self)
      rw [results, List.map_cons, result_eq_compile hstore hkept hnow,
        ih hafter (fun call hcall => hportable call (List.mem_cons_of_mem _ hcall)) hlater]

end CacheCall

/-- Caches of any formats, and caches that keep nothing, over one store that is empty at first, in
memory or in a directory, return for every call what compiling its source returns, if changes can
be told. What cannot be read back is compiled again. -/
theorem CacheCall.caches_transparent (calls : List CacheCall)
    (hportable : ∀ call ∈ calls, call.source.Portable) :
    (Fair MemoryStore.store MemoryStore.Holds [] calls [] →
      results MemoryStore.store calls [] = calls.map fun call => call.source.compile) ∧
    ∀ dir files, (∀ s, ¬ DirectoryStore.Holds dir files s) →
      Fair (DirectoryStore.store dir) (DirectoryStore.Holds dir) [] calls files →
      results (DirectoryStore.store dir) calls files =
        calls.map fun call => call.source.compile := by
  refine ⟨fun hfair => ?_, fun dir files hempty hfair => ?_⟩
  · exact results_eq_compile MemoryStore.heldBy (fun s ⟨_, hs⟩ => nomatch hs) hportable hfair
  · exact results_eq_compile (DirectoryStore.heldBy dir) (fun s hs => (hempty s hs).elim) hportable
      hfair

/-- Two templates whose artifacts share a file in a directory, and the first of them again after it
was changed. -/
def CacheCall.changing : List CacheCall :=
  [⟨some "weft-1", .zero, 10, ⟨"", some "a/b".toList, some 5, .utf8⟩⟩,
   ⟨some "weft-1", .zero, 11, ⟨"", some "a_b".toList, some 5, .utf8⟩⟩,
   ⟨none, .zero, 12, ⟨"<%pass%>", some "a/b".toList, some 20, .utf8⟩⟩,
   ⟨some "weft-1", .zero, 13, ⟨"<%pass%>", some "a/b".toList, some 20, .utf8⟩⟩]

theorem CacheCall.fair_changing {σ : Type} {store : ArtifactStore σ} {Holds : σ → Stored → Prop}
    (hstore : store.HeldBy Holds) {kept : σ} (hempty : ∀ s, ¬ Holds kept s) :
    Fair store Holds [] changing kept := by
  have hafter {call : CacheCall} {kept : σ} (hnow : call.now ≤ 20)
      (hkept : ∀ s, Holds kept s → s.stamp ≤ 20) :
      ∀ s, Holds (call.after store kept) s → s.stamp ≤ 20 := by
    intro s hs
    rcases held_after hstore hs with hheld | ⟨_, _, _, -, -, rfl⟩
    · exact hkept s hheld
    · exact hnow
  have hstart : ∀ s, Holds kept s → s.stamp ≤ 20 := fun s hs => (hempty s hs).elim
  rw [changing, Fair, Fair, Fair, Fair, Fair]
  refine ⟨fun source hsource => (nomatch hsource), ?_, ?_, ?_, trivial⟩
  · intro source hsource _ _ _ htext
    obtain rfl := List.mem_singleton.mp hsource
    exact absurd rfl htext
  · intro _ _ _ _ _ _ stamp hstamp
    obtain rfl := Option.some.inj hstamp
    exact hafter (by decide) (hafter (by decide) hstart)
  · intro _ _ _ _ _ _ stamp hstamp
    obtain rfl := Option.some.inj hstamp
    exact hafter (by decide) (hafter (by decide) (hafter (by decide) hstart))

theorem CacheCall.caches_transparent_changing :
    results MemoryStore.store changing [] = changing.map (fun call => call.source.compile) ∧
      results (DirectoryStore.store "cache") changing .fresh =
        changing.map fun call => call.source.compile := by
  have hempty (name : Text) : Program.ofTemplate name "" = .ok ⟨name, "\n", [], []⟩ := by cbv
  have hpass (name : Text) :
      Program.ofTemplate name "<%pass%>" = .ok ⟨name, "pass\n", [.at 1 .pass], [1]⟩ := by cbv
  have hportable : ∀ call ∈ changing, call.source.Portable := by
    intro call hcall p hp
    have hprogram : p.lines.all (· ≤ 1) = true ∧ p.constants = [] := by
      simp only [changing, List.mem_cons, List.not_mem_nil, or_false] at hcall
      rcases hcall with rfl | rfl | rfl | rfl
      · obtain rfl := Except.ok.inj (hp.symm.trans (hempty _))
        exact ⟨rfl, rfl⟩
      · obtain rfl := Except.ok.inj (hp.symm.trans (hempty _))
        exact ⟨rfl, rfl⟩
      · obtain rfl := Except.ok.inj (hp.symm.trans (hpass _))
        exact ⟨rfl, rfl⟩
      · obtain rfl := Except.ok.inj (hp.symm.trans (hpass _))
        exact ⟨rfl, rfl⟩
    refine ⟨fun n hn => ?_, fun x hx => ?_⟩
    · have hle : n ≤ 1 := by simpa using List.all_eq_true.mp hprogram.1 n hn
      exact Nat.lt_of_le_of_lt hle (by decide)
    · rw [hprogram.2] at hx
      cases hx
  have hempty : ∀ s, ¬ MemoryStore.Holds [] s := by
    rintro s ⟨key, hkey⟩
    cases hkey
  have hfresh : ∀ s, ¬ DirectoryStore.Holds "cache" .fresh s := by
    rintro s ⟨name, hname⟩
    cases hname
  have htransparent := caches_transparent changing hportable
  exact ⟨htransparent.1 (fair_changing MemoryStore.heldBy hempty),
    htransparent.2 "cache" .fresh hfresh (fair_changing (DirectoryStore.heldBy "cache") hfresh)⟩

end TemplateEngine
