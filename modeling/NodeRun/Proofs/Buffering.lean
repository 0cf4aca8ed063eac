import Mathlib.Data.List.Forall2
import Mathlib.Data.List.Induction
import NodeRun.Canned

namespace NodeRun

/-- How the destination of the batches takes one of them. It may take the next one otherwise. -/
abbrev Exporter := SpanBatch → String → Except Error Unit

inductive ScopeUse where
  | record (span : Span)
  | flush (now : Int64)
  deriving DecidableEq, Repr

namespace ScopeUse

def span? : ScopeUse → Option Span
  | record x => some x
  | flush _ => none

def isFlush : ScopeUse → Bool
  | record _ => false
  | flush _ => true

def recorded (uses : List (Exporter × ScopeUse)) : List Span := uses.filterMap (fun u => u.2.span?)

end ScopeUse

namespace Span

def Finishes (x y : Span) : Prop := ∃ now, y = x.finish now

structure HandedOver (root : Option String) (x y : Span) : Prop where
  finished : y.isFinished = true
  time : ∀ t, x.timestamps.finishedAt = some t → y.timestamps.finishedAt = some t
  orphan : x.parentId = none → y.parentId = root
  child : ∀ p, x.parentId = some p → y.parentId = some p
  rest : y =
    { x with
      parentId := y.parentId
      timestamps := { x.timestamps with finishedAt := y.timestamps.finishedAt } }

variable {x y : Span} {root : Option String}

theorem Finishes.finished (h : x.Finishes y) : y.isFinished = true := by
  obtain ⟨now, rfl⟩ := h
  exact isFinished_finish _ _

theorem Finishes.parentId_eq (h : x.Finishes y) : y.parentId = x.parentId := by
  obtain ⟨now, rfl⟩ := h
  unfold finish
  split <;> rfl

theorem Finishes.time (h : x.Finishes y) {t : Int64} (ht : x.timestamps.finishedAt = some t) :
    y.timestamps.finishedAt = some t := by
  obtain ⟨now, rfl⟩ := h
  rw [finish_of_isFinished (by simp [isFinished, ht]), ht]

theorem Finishes.rest (h : x.Finishes y) :
    y = { x with timestamps := { x.timestamps with finishedAt := y.timestamps.finishedAt } } := by
  obtain ⟨now, rfl⟩ := h
  unfold finish
  split <;> rfl

theorem Finishes.handedOver
    (h : ({ x with parentId := x.parentId <|> root } : Span).Finishes y) : x.HandedOver root y := by
  have hparent : y.parentId = (x.parentId <|> root) := h.parentId_eq
  refine ⟨h.finished, fun t ht => h.time ht, fun hx => ?_, fun p hp => ?_, ?_⟩
  · rw [hparent, hx]
    rfl
  · rw [hparent, hp]
    rfl
  · rw [hparent]
    exact h.rest

end Span

namespace Scope

def pending (s : Scope) : List Span := s.root.toList ++ s.buffer

def use (s : Scope) (sent : Exporter) : ScopeUse → Scope × List Effect
  | .record x => (Tracer.buffered sent).record s x
  | .flush now =>
    let (_, es, s) := s.flush (.buffered sent) now
    (s, es)

def run (s : Scope) : List (Exporter × ScopeUse) → Scope × List Effect
  | [] => (s, [])
  | (sent, u) :: uses =>
    let (s, es) := s.use sent u
    let (s, fs) := s.run uses
    (s, es ++ fs)

def batches (es : List Effect) : List (SpanBatch × String) := es.filterMap Effect.batch?

def exported (es : List Effect) : List Span := (batches es).flatMap (fun b => b.1.spans)

structure Carries (o : TraceOptions) (b : SpanBatch × String) : Prop where
  spans : b.1.spans ≠ []
  traceId : b.1.traceId = o.traceId
  metadata : b.1.metadata = o.metadata
  key : b.2 = o.apiKey

variable {s s₀ : Scope} {sent : Exporter} {u : ScopeUse} {es fs : List Effect}
  {uses : List (Exporter × ScopeUse)}

theorem batches_append (es fs : List Effect) : batches (es ++ fs) = batches es ++ batches fs :=
  List.filterMap_append

theorem exported_append (es fs : List Effect) :
    exported (es ++ fs) = exported es ++ exported fs := by
  simp [exported, batches_append]

theorem run_append (s : Scope) (uses uses' : List (Exporter × ScopeUse)) :
    s.run (uses ++ uses') =
      (((s.run uses).1.run uses').1, (s.run uses).2 ++ ((s.run uses).1.run uses').2) := by
  induction uses generalizing s with
  | nil => rfl
  | cons u uses ih => simp only [List.cons_append, run, ih, List.append_assoc]

theorem run_concat (s : Scope) (uses : List (Exporter × ScopeUse)) (sent : Exporter)
    (u : ScopeUse) :
    s.run (uses ++ [(sent, u)]) =
      (((s.run uses).1.use sent u).1, (s.run uses).2 ++ ((s.run uses).1.use sent u).2) := by
  simp [run_append, run]

theorem batches_flush (s : Scope) (sent : Exporter) (now : Int64) :
    batches (s.use sent (.flush now)).2 =
      if s.pending = [] ∨ s.options.apiKey = "" then [] else [(s.batch now, s.options.apiKey)] := by
  have hdue : (s.due now).isEmpty = true ↔ s.pending = [] := by simp [due, pending]
  simp only [use, flush, Tracer.buffered, flushBuffered, hdue]
  split
  · rename_i h
    rw [if_pos (.inl h)]
    rfl
  · rename_i h
    split
    · rename_i hk
      rw [if_pos (.inr hk)]
      rfl
    · rename_i hk
      rw [if_neg (not_or.mpr ⟨h, hk⟩)]
      rfl

theorem exported_flush (hk : s.options.apiKey ≠ "") (now : Int64) :
    exported (s.use sent (.flush now)).2 = s.pending.map (Span.finish now) := by
  by_cases h : s.pending = []
  · simp [exported, batches_flush, h]
  · rw [exported, batches_flush, if_neg (not_or.mpr ⟨h, hk⟩)]
    simp [batch, due, pending]

/-- How the spans handed over since `s₀`, and those that wait, come from those that waited then and
those recorded since. -/
structure Accounts (s₀ : Scope) (uses : List (Exporter × ScopeUse)) (s : Scope)
    (es : List Effect) : Prop where
  options : s.options = s₀.options
  rootId : s.rootId = s₀.rootId
  carried : ∀ b ∈ batches es, Carries s₀.options b
  spans : ∃ handed,
    s₀.pending ++ (ScopeUse.recorded uses).map s₀.adopt = handed ++ s.pending ∧
      List.Forall₂ Span.Finishes handed (exported es)

theorem forall₂_finishes (xs : List Span) (now : Int64) :
    List.Forall₂ Span.Finishes xs (xs.map (Span.finish now)) :=
  List.forall₂_map_right_iff.mpr (List.forall₂_same.mpr fun _ _ => ⟨now, rfl⟩)

theorem Accounts.record (h : Accounts s₀ uses s es) (sent : Exporter) (x : Span) :
    Accounts s₀ (uses ++ [(sent, .record x)]) (s.use sent (.record x)).1
      (es ++ (s.use sent (.record x)).2) := by
  obtain ⟨handed, hspans, hfinishes⟩ := h.spans
  have hes : es ++ (s.use sent (.record x)).2 = es := List.append_nil es
  have hadopt : s.adopt x = s₀.adopt x := by simp only [adopt, h.rootId]
  rw [hes]
  refine ⟨h.options, h.rootId, h.carried, handed, ?_, hfinishes⟩
  have hpending : (s.use sent (.record x)).1.pending = s.pending ++ [s₀.adopt x] := by
    rw [← hadopt]
    exact (List.append_assoc ..).symm
  rw [hpending, ← List.append_assoc, ← hspans]
  simp [ScopeUse.recorded, ScopeUse.span?]

theorem Accounts.flush (h : Accounts s₀ uses s es) (hk : s₀.options.apiKey ≠ "") (sent : Exporter)
    (now : Int64) :
    Accounts s₀ (uses ++ [(sent, .flush now)]) (s.use sent (.flush now)).1
      (es ++ (s.use sent (.flush now)).2) := by
  obtain ⟨handed, hspans, hfinishes⟩ := h.spans
  have hks : s.options.apiKey ≠ "" := by rwa [h.options]
  refine ⟨h.options, h.rootId, fun b hb => ?_, handed ++ s.pending, ?_, ?_⟩
  · rw [batches_append, batches_flush, List.mem_append] at hb
    rcases hb with hb | hb
    · exact h.carried b hb
    · split at hb
      · cases hb
      · rename_i hpending
        cases List.mem_singleton.mp hb
        rw [← h.options]
        refine ⟨?_, rfl, rfl, rfl⟩
        simpa [batch, due, pending] using (not_or.mp hpending).1
  · have hdrained : (s.use sent (.flush now)).1.pending = [] := rfl
    rw [hdrained, List.append_nil, ← hspans]
    simp [ScopeUse.recorded, ScopeUse.span?]
  · rw [exported_append, exported_flush hks]
    exact List.rel_append hfinishes (forall₂_finishes _ _)

theorem accounts_run (s₀ : Scope) (hk : s₀.options.apiKey ≠ "")
    (uses : List (Exporter × ScopeUse)) :
    Accounts s₀ uses (s₀.run uses).1 (s₀.run uses).2 := by
  induction uses using List.reverseRecOn with
  | nil => exact ⟨rfl, rfl, nofun, [], by simp [run, ScopeUse.recorded], .nil⟩
  | append_singleton uses u ih =>
    obtain ⟨sent, u⟩ := u
    rw [run_concat]
    cases u with
    | record x => exact ih.record sent x
    | flush now => exact ih.flush hk sent now

theorem batches_of_unflushed (s : Scope) (h : ∀ u ∈ uses, u.2.isFlush = false) :
    batches (s.run uses).2 = [] := by
  induction uses generalizing s with
  | nil => rfl
  | cons u uses ih =>
    obtain ⟨sent, u⟩ := u
    obtain ⟨hu, huses⟩ := List.forall_mem_cons.mp h
    cases u with
    | flush now => cases hu
    | record x => exact ih _ huses

theorem batches_of_keyless (s : Scope) (hk : s.options.apiKey = "")
    (uses : List (Exporter × ScopeUse)) : batches (s.run uses).2 = [] := by
  induction uses generalizing s with
  | nil => rfl
  | cons u uses ih =>
    obtain ⟨sent, u⟩ := u
    cases u with
    | record x => exact ih _ hk
    | flush now =>
      simp only [run, batches_append, batches_flush, hk, or_true, if_true, List.nil_append]
      exact ih _ hk

theorem finishes_of_last {before after : List (Exporter × ScopeUse)} {now : Int64}
    (hk : s.options.apiKey ≠ "") (h : ∀ u ∈ after, u.2.isFlush = false) :
    List.Forall₂ Span.Finishes (s.pending ++ (ScopeUse.recorded before).map s.adopt)
      (exported (s.run (before ++ (sent, .flush now) :: after)).2) := by
  obtain ⟨handed, hspans, hfinishes⟩ := (accounts_run s hk (before ++ [(sent, .flush now)])).spans
  -- Nothing waits right after the flush, so all that was recorded before it is handed over.
  have hpending : (s.run (before ++ [(sent, .flush now)])).1.pending = [] := by
    rw [run_concat]
    rfl
  rw [hpending, List.append_nil] at hspans
  have hrecorded :
      ScopeUse.recorded (before ++ [(sent, .flush now)]) = ScopeUse.recorded before := by
    simp [ScopeUse.recorded, ScopeUse.span?]
  rw [hrecorded] at hspans
  have hafter := batches_of_unflushed (s.run (before ++ [(sent, .flush now)])).1 h
  rw [List.append_cons, run_append, exported_append, hspans]
  simpa [exported, hafter] using hfinishes

def HandsOver (o : TraceOptions) (root : Span) (recorded spans : List Span) : Prop :=
  if o.skipRootSpan then List.Forall₂ (Span.HandedOver none) recorded spans
  else
    ∃ y ys, spans = y :: ys ∧ root.HandedOver none y ∧
      List.Forall₂ (Span.HandedOver (some root.id)) recorded ys

theorem handsOver_ofOptions {o : TraceOptions} {root : Span} {recorded spans : List Span}
    (h : List.Forall₂ Span.Finishes
      ((ofOptions o root).pending ++ recorded.map (ofOptions o root).adopt) spans) :
    HandsOver o root recorded spans := by
  have hadopted {xs ys : List Span}
      (h : List.Forall₂ Span.Finishes (xs.map (ofOptions o root).adopt) ys) :
      List.Forall₂ (Span.HandedOver (ofOptions o root).rootId) xs ys :=
    (List.forall₂_map_left_iff.mp h).imp fun _ _ hxy => hxy.handedOver
  unfold HandsOver
  split
  · rename_i ho
    have hroot : (ofOptions o root).rootId = none := by simp [ofOptions, ho]
    have hpending : (ofOptions o root).pending = [] := by simp [pending, ofOptions, ho]
    rw [hpending, List.nil_append] at h
    exact hroot ▸ hadopted h
  · rename_i ho
    have hroot : (ofOptions o root).rootId = some root.id := by simp [ofOptions, ho]
    have hpending : (ofOptions o root).pending = [root] := by simp [pending, ofOptions, ho]
    rw [hpending] at h
    obtain ⟨y, ys, hy, hys, rfl⟩ := List.forall₂_cons_left_iff.mp h
    refine ⟨y, ys, rfl, Span.Finishes.handedOver ?_, hroot ▸ hadopted hys⟩
    cases hp : root.parentId <;> simpa [← hp] using hy

theorem exported_once (opener : Exporter) (o : TraceOptions) (root : Span)
    (uses : List (Exporter × ScopeUse)) :
    ∃ s, ((Tracer.buffered opener).openScope o root).1 = .ok s ∧
      (o.apiKey = "" → batches (s.run uses).2 = []) ∧
      (o.apiKey ≠ "" →
        (∀ b ∈ batches (s.run uses).2, Carries o b) ∧
        ((∀ u ∈ uses, u.2.isFlush = false) → batches (s.run uses).2 = []) ∧
        ∀ before last after, uses = before ++ last :: after → last.2.isFlush = true →
          (∀ u ∈ after, u.2.isFlush = false) →
          HandsOver o root (ScopeUse.recorded before) (exported (s.run uses).2)) := by
  refine ⟨ofOptions o root, rfl, fun hk => batches_of_keyless _ hk uses, fun hk => ⟨?_, ?_, ?_⟩⟩
  · exact (accounts_run (ofOptions o root) hk uses).carried
  · exact batches_of_unflushed _
  · rintro before ⟨sent, last⟩ after rfl hlast hafter
    cases last with
    | record x => cases hlast
    | flush now => exact handsOver_ofOptions (finishes_of_last hk hafter)

def nested : Span :=
  { Span.start "b" .rag "B" 1 with parentId := some "p", timestamps := ⟨1, some 2⟩ }

def flushedTwice : List (Exporter × ScopeUse) :=
  [(fun _ _ => .ok (), .record (.start "a" .llm "A" 0)),
    (fun _ _ => .error Tracer.collectorDown, .flush 5),
    (fun _ _ => .ok (), .record nested),
    (fun _ _ => .ok (), .flush 7),
    (fun _ _ => .ok (), .record (.start "c" .llm "C" 8))]

theorem exported_once_flushedTwice :
    (TraceOptions.new "t" "key").apiKey ≠ "" ∧
      ∃ s, ((Tracer.buffered fun _ _ => .ok ()).openScope (.new "t" "key")
          (.start "r" .span rootName 0)).1 = .ok s ∧
        HandsOver (.new "t" "key") (.start "r" .span rootName 0) [.start "a" .llm "A" 0, nested]
          (exported (s.run flushedTwice).2) := by
  have hk : (TraceOptions.new "t" "key").apiKey ≠ "" := by decide
  obtain ⟨s, hs, -, h⟩ := exported_once (fun _ _ => .ok ()) (.new "t" "key")
    (.start "r" .span rootName 0) flushedTwice
  have hlast := (h hk).2.2 (flushedTwice.take 3) (flushedTwice[3]) (flushedTwice.drop 4) rfl rfl
  exact ⟨hk, s, hs, hlast (by simp [flushedTwice, ScopeUse.isFlush])⟩

end Scope

end NodeRun
