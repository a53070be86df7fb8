import TemplateEngine.Proofs.Script.Printing
import TemplateEngine.Proofs.Script.SafeEvaluation
import TemplateEngine.Proofs.Template.Prints

/-!
# Escaping is sound

On a page whose filter escapes, a template of texts and prints shows no character
of a value that could open a tag or leave an attribute, if its caller gave it no
text declared safe and no functions, and it names nothing that declares text safe.
The state between two statements is guarded, and a print keeps it so.
-/
namespace TemplateEngine

open Draft
open Entity (Inert)
open Outline (appendCall filterCall)

theorem Guarded.append {ω : Type} {s : State ω} (hs : Guarded s) (chunk : Text) :
    Guarded { s with scope := s.scope.append chunk } where
  locals := hs.locals
  vars := hs.vars
  globals := hs.globals
  filter := hs.filter

namespace Printing

variable {ω : Type} {host : Host ω} {fuel line : Nat} {e : Expr} {s s' : State ω}

/-- A call of a function by its name, with one argument, evaluates the argument. -/
theorem exists_of_call {name : Text} {v : Value}
    (h : (Expr.call (.name name) [e] []).eval host s = .ok v s')
    (hname : ∃ f, s.scope.resolve? name = some f) : ∃ w s₁, e.eval host s = .ok w s₁ := by
  obtain ⟨f, hf⟩ := hname
  have hcallee : (Expr.name name).eval host s = .ok f s := by
    rw [eval_name]
    exact Run.lookup_resolved hf
  simp only [Expr.eval] at h hcallee
  obtain ⟨callee, s₁, hcallee', h⟩ := Run.exists_of_bind h
  rw [hcallee] at hcallee'
  cases hcallee'
  obtain ⟨args, s₂, hargs, -⟩ := Run.exists_of_bind h
  simp only [evalAll] at hargs
  obtain ⟨w, s₃, hw, -⟩ := Run.exists_of_bind hargs
  exact ⟨w, s₃, hw⟩

/-- A statement that appends evaluates what it appends. -/
theorem exists_of_append {flow : Flow}
    (h : (Stmt.at line (appendCall e)).exec host fuel [] s = .ok flow s') :
    ∃ v s₁, e.eval host s = .ok v s₁ := by
  simp only [Stmt.exec] at h
  have haction : (appendCall e).exec host fuel [] s = .ok flow s' := by
    unfold Run.atLine at h
    split at h
    · cases h
    · exact h
  simp only [appendCall, Action.exec] at haction
  obtain ⟨v, s₁, hcall, -⟩ := Run.exists_of_bind haction
  exact exists_of_call hcall ⟨_, rfl⟩

/-- On a guarded page a print evaluates its expression and appends inert text. -/
theorem exec_print_guarded (hs : Guarded s) (he : Modest e.names) {flow : Flow}
    (h : (Stmt.at line (appendCall (filterCall e))).exec host fuel [] s = .ok flow s') :
    ∃ v s₁ chunk, e.eval host s = .ok v s₁ ∧ s₁.heap.Safe v ∧
      chunk = s₁.heap.display (s₁.scope.filtered (s₁.heap.display v) v) ∧ Inert chunk ∧
      flow = .normal ∧ Guarded s' ∧ s'.scope.chunks = s.scope.chunks.push chunk := by
  obtain ⟨w, s₂, hfilter⟩ := exists_of_append h
  obtain ⟨v, s₁, hv⟩ := exists_of_call hfilter ⟨_, rfl⟩
  obtain ⟨hkeeps, hscope, hsafe⟩ := Expr.keeps_eval host e he hs v s₁ hv
  have hguarded := hs.keeps hkeeps hscope
  rw [exec_append host fuel line (eval_filterCall host hv)] at h
  cases h
  have hfiltered := Scope.safe_filtered hguarded.filter hsafe (s₁.heap.display v)
  refine ⟨v, s₁, _, hv, hsafe, rfl, ?_, rfl, hguarded.append _, ?_⟩
  · unfold Scope.filtered at hfiltered ⊢
    rw [hguarded.filter] at hfiltered ⊢
    cases v with
    | markup t => exact hfiltered.harmless
    | _ => exact hfiltered.harmless
  · rw [← hscope]
    rfl

/-- What a segment appends to the output: its text, or the filtered text of the value of its
expression, which is inert. -/
inductive Escapes (host : Host ω) : Segment → Text → Prop
  | literal (t : Text) (line : Nat) : Escapes host (.literal t line) t
  | print {tag : Tag} {e : Expr} {s s' : State ω} {v : Value} {chunk : Text} :
      parseExpression (Text.trim tag.body) = .ok e → e.eval host s = .ok v s' →
      s'.heap.Safe v → chunk = s'.heap.display (s'.scope.filtered (s'.heap.display v) v) →
      Inert chunk → Escapes host (.tag tag) chunk

/-- The statements of texts and prints keep a page guarded, and all they print is inert. -/
theorem execAll_prints {segments : List Segment} {body : Block} (h : List.Forall₂
      (fun segment stmt => ∃ line action, stmt = .at line action ∧
        segment.Appends (fun e => Modest e.names) action) segments body)
    (hs : Guarded s) {flow : Flow} (hrun : execAll host fuel [] body s = .ok flow s') :
    Guarded s' ∧ ∃ chunks, s'.scope.chunks.toList = s.scope.chunks.toList ++ chunks ∧
      List.Forall₂ (Escapes host) segments chunks := by
  induction h generalizing s with
  | nil =>
      simp only [execAll] at hrun
      cases hrun
      exact ⟨hs, [], (List.append_nil _).symm, .nil⟩
  | @cons segment stmt segments stmts hstmt _ ih =>
      obtain ⟨line, action, rfl, happends⟩ := hstmt
      simp only [execAll] at hrun
      obtain ⟨flow', s₁, hfirst, hrest⟩ := Run.exists_of_bind hrun
      have hstep : flow' = .normal ∧ Guarded s₁ ∧ ∃ chunk,
          s₁.scope.chunks = s.scope.chunks.push chunk ∧ Escapes host segment chunk := by
        cases happends with
        | literal t templateLine =>
            rw [exec_literal] at hfirst
            cases hfirst
            exact ⟨rfl, hs.append t, t, rfl, .literal t templateLine⟩
        | print hparse he =>
            obtain ⟨v, s₂, chunk, hv, hsafe, hchunk, hinert, hflow, hs₁, hpush⟩ :=
              exec_print_guarded hs he hfirst
            exact ⟨hflow, hs₁, chunk, hpush, .print hparse hv hsafe hchunk hinert⟩
      obtain ⟨rfl, hs₁, chunk, hpush, hescapes⟩ := hstep
      obtain ⟨hs', chunks, hchunks, hall⟩ := ih hs₁ hrest
      refine ⟨hs', chunk :: chunks, ?_, .cons hescapes hall⟩
      rw [hchunks, hpush, Array.toList_push, List.append_assoc, List.singleton_append]

end Printing

namespace Heap

/-- A value that contains, at any distance, neither text declared safe nor a function. -/
def Unmarked (h : Heap) (v : Value) : Prop :=
  ∀ w, Relation.ReflTransGen (fun a b => b ∈ h.leads a) v w →
    (∀ t, w ≠ .markup t) ∧ ∀ f, w ≠ .function f

theorem Unmarked.safe {h : Heap} {v : Value} (hv : h.Unmarked v) : h.Safe v := by
  intro w hw
  obtain ⟨hmarkup, hfunction⟩ := hv w hw
  cases w with
  | markup t => exact absurd rfl (hmarkup t)
  | function f => exact absurd rfl (hfunction f)
  | _ => trivial

end Heap

namespace Printing

variable {ω : Type}

theorem guarded_begin {site : Site} {vars : Entries Value} {shared : Shared ω}
    (hfilter : site.filter = some Entity.escape)
    (hgiven : ∀ entry ∈ vars ++ site.globals, shared.heap.Unmarked entry.2) :
    Guarded (Program.begin site vars shared) where
  locals := rfl
  vars := by
    intro entry hentry
    exact (hgiven entry (List.mem_append_left _ hentry)).safe
  globals := by
    intro entry hentry
    exact (hgiven entry (List.mem_append_right _ hentry)).safe
  filter := hfilter

/-- Escaping is sound: of a template of texts and prints, on a page whose caller gave it no
text declared safe and no function, all that a print appends to the output is inert. -/
theorem chunks_escaped {name t : Text} (hsegments : ∀ segment ∈ (Splitting.ofTemplate t).segments,
      segment.Prints fun e => Modest e.names)
    {p : Program} (hp : Program.ofTemplate name t = .ok p) (host : Host ω) {site : Site}
    (hfilter : site.filter = some Entity.escape) {vars : Entries Value} {shared : Shared ω}
    (hgiven : ∀ entry ∈ vars ++ site.globals, shared.heap.Unmarked entry.2) {output : Text}
    {after : Shared ω} (h : p.render host site vars shared = .ok output after) :
    ∃ s, Run.program host p.body (Program.begin site vars shared) = .ok () s ∧
      output = s.scope.output ∧ List.Forall₂ (Escapes host)
      (Splitting.ofTemplate t).segments s.scope.chunks.toList := by
  unfold Program.render at h
  split at h
  · rename_i s hprogram
    cases h
    refine ⟨s, hprogram, rfl, ?_⟩
    obtain ⟨flow, s', hrun, hend⟩ := Run.exists_of_bind hprogram
    cases hend
    have hbody := Segment.forall₂_of_ofTemplate hsegments hp
    obtain ⟨-, chunks, hchunks, hall⟩ :=
      execAll_prints hbody (guarded_begin hfilter hgiven) hrun
    have hempty : (Program.begin site vars shared).scope.chunks.toList = [] := rfl
    rw [hempty, List.nil_append] at hchunks
    rw [hchunks]
    exact hall
  · cases h
  · cases h

theorem chunks_escaped_paragraph : ∃ p s, Program.ofTemplate "page" "<p><%= x %></p>" = .ok p ∧
    Run.program (@Host.absent Unit) p.body
      (Program.begin ⟨[], some Entity.escape⟩ [("x", .str "<b>")] ⟨.empty, ()⟩) = .ok () s ∧
    s.scope.output = "<p>&lt;b&gt;</p>" ∧
    List.Forall₂ (@Escapes Unit Host.absent)
      [.literal "<p>" 1, .tag ⟨.print, " x ", 1, false, false⟩, .literal "</p>" 1]
      s.scope.chunks.toList := by
  have hsplit : (Splitting.ofTemplate "<p><%= x %></p>").segments =
      [.literal "<p>" 1, .tag ⟨.print, " x ", 1, false, false⟩, .literal "</p>" 1] := by
    decide
  have hpage : (match renderText "page" "<p><%= x %></p>" ⟨[], some Entity.escape⟩
      [("x", .str "<b>")] ⟨.empty, ()⟩ with
    | .ok output _ => decide (output = "<p>&lt;b&gt;</p>".toList)
    | .error _ _ => false) = true := by
    decide +kernel
  have hprints : ∀ segment ∈ (Splitting.ofTemplate "<p><%= x %></p>").segments,
      segment.Prints fun e => Modest e.names := by
    rw [hsplit]
    have hx : Segment.Prints (fun e => Modest e.names)
        (.tag ⟨.print, " x ", 1, false, false⟩) :=
      ⟨rfl, .name "x", rfl, show ∀ name ∈ [['x']], name ∉ declaring by decide⟩
    simp only [List.mem_cons, List.not_mem_nil, or_false, forall_eq_or_imp, forall_eq]
    exact ⟨trivial, hx, trivial⟩
  have hgiven : ∀ entry ∈ ([("x", .str "<b>")] : Entries Value) ++ [],
      Heap.empty.Unmarked entry.2 := by
    intro entry hentry
    rw [List.append_nil, List.mem_singleton] at hentry
    subst hentry
    intro w hw
    rcases hw.cases_head with rfl | ⟨_, hlead, -⟩
    · constructor
      · intro t ht
        cases ht
      · intro f hf
        cases hf
    · cases hlead
  unfold renderText at hpage
  cases hp : Program.ofTemplate "page" "<p><%= x %></p>" with
  | error error =>
      rw [hp] at hpage
      cases hpage
  | ok p =>
      rw [hp] at hpage
      cases hrender : p.render Host.absent ⟨[], some Entity.escape⟩ [("x", .str "<b>")]
          ⟨.empty, ()⟩ with
      | error failure after =>
          simp only [hrender] at hpage
          cases hpage
      | ok output after =>
          simp only [hrender, decide_eq_true_eq] at hpage
          obtain ⟨s, hrun, houtput, hall⟩ :=
            chunks_escaped hprints hp Host.absent rfl hgiven hrender
          rw [hsplit] at hall
          exact ⟨p, s, rfl, hrun, houtput.symm.trans hpage, hall⟩

end Printing

end TemplateEngine
