import Mathlib

/-!
This module contains the batching of the texts that are embedded.
-/

namespace Vane

open List (Forall₂ forall_mem_append forall_mem_singleton)

abbrev Input := List Char

def estTokens (item : Input) : ℕ := item.length / 3

def chunkText (text : Input) (charSize : ℕ) : List Input :=
  (List.range ((text.length + charSize - 1) / charSize)).map fun i =>
    (text.drop (i * charSize)).take charSize

/--
`embedBatch` answers a request after the earlier requests, and `Of` relates an input to an embedding
of it.
-/
structure OpenAITextEmbedder (β : Type) (Of : Input → β → Prop) where
  batchTokenLimit : ℕ
  inputTextTokenLimit : ℕ
  embedBatch : List (List Input) → List Input → List β
  average : List β → List ℕ → β
  inputTextTokenLimit_pos : 0 < inputTextTokenLimit
  embedBatch_aligned : ∀ earlier texts, Forall₂ Of texts (embedBatch earlier texts)

namespace OpenAITextEmbedder

structure Progress (β : Type) where
  embeddings : List β := []
  batch : List Input := []
  batchTokens : ℕ := 0
  requests : List (List Input) := []

variable {β : Type} {Of : Input → β → Prop} (e : OpenAITextEmbedder β Of)

def flush (s : Progress β) : Progress β :=
  if s.batch = [] then s
  else {
    embeddings := s.embeddings ++ e.embedBatch s.requests s.batch
    requests := s.requests ++ [s.batch] }

def chunks (item : Input) : List Input := chunkText item (e.inputTextTokenLimit * 3)

def embedItem (s : Progress β) (item : Input) : Progress β :=
  if e.inputTextTokenLimit < estTokens item then
    let s := e.flush s
    let chunkEmbeddings := e.embedBatch s.requests (e.chunks item)
    { s with
      embeddings := s.embeddings ++ [e.average chunkEmbeddings ((e.chunks item).map List.length)]
      requests := s.requests ++ [e.chunks item] }
  else
    let s := if e.batchTokenLimit ≤ estTokens item + s.batchTokens then e.flush s else s
    { s with batch := s.batch ++ [item], batchTokens := s.batchTokens + estTokens item }

def embedText (text : List (Option Input)) : Progress β :=
  e.flush ((text.map (·.getD [])).foldl e.embedItem {})

def Embeds (item : Input) (embedding : β) : Prop :=
  if e.inputTextTokenLimit < estTokens item then
    ∃ chunkEmbeddings, Forall₂ Of (e.chunks item) chunkEmbeddings ∧
      embedding = e.average chunkEmbeddings ((e.chunks item).map List.length)
  else
    Of item embedding

def InputsFit (request : List Input) : Prop :=
  ∀ input ∈ request, estTokens input ≤ e.inputTextTokenLimit

def BatchFits (request : List Input) : Prop :=
  1 < request.length → (request.map estTokens).sum ≤ e.batchTokenLimit

def ChunksFit (text : List Input) : Prop :=
  ∀ item ∈ text, e.inputTextTokenLimit < estTokens item → estTokens item ≤ e.batchTokenLimit

structure Embedded (text : List Input) (s : Progress β) : Prop where
  tokens : s.batchTokens = (s.batch.map estTokens).sum
  sent : ∃ sent, text = sent ++ s.batch ∧ Forall₂ e.Embeds sent s.embeddings
  inputs : ∀ request ∈ s.requests ++ [s.batch], e.InputsFit request
  batch : e.BatchFits s.batch
  requests : (∀ request ∈ s.requests, e.BatchFits request) ↔ e.ChunksFit text

variable {e} {text : List Input} {s : Progress β} {item : Input}

theorem sum_estTokens_chunks : ((e.chunks item).map estTokens).sum = estTokens item := by
  have hsum (n : ℕ) : (((List.range n).map fun i => (item.drop (i * (e.inputTextTokenLimit * 3))).take
      (e.inputTextTokenLimit * 3)).map estTokens).sum =
        min (n * e.inputTextTokenLimit) (estTokens item) := by
    induction n with
    | zero => simp
    | succ n ih =>
      rw [List.range_succ, List.map_append, List.map_append, List.sum_append, ih, add_mul]
      simp [estTokens, ← mul_assoc]
      omega
  have hpos := e.inputTextTokenLimit_pos
  have hcover := Nat.lt_mul_div_succ (item.length + e.inputTextTokenLimit * 3 - 1)
    (b := e.inputTextTokenLimit * 3) (by omega)
  unfold chunks chunkText
  rw [hsum, min_eq_right]
  unfold estTokens
  grind

theorem one_lt_length_chunks (h : e.inputTextTokenLimit < estTokens item) :
    1 < (e.chunks item).length := by
  have hpos := e.inputTextTokenLimit_pos
  unfold chunks chunkText
  rw [List.length_map, List.length_range, ← Nat.succ_le_iff, Nat.le_div_iff_mul_le (by omega)]
  unfold estTokens at h
  omega

theorem inputsFit_chunks : e.InputsFit (e.chunks item) := by
  intro chunk hchunk
  obtain ⟨i, -, rfl⟩ := List.mem_map.1 hchunk
  unfold estTokens
  rw [List.length_take]
  omega

theorem Embedded.flush (h : e.Embedded text s) :
    e.Embedded text (e.flush s) ∧ (e.flush s).batch = [] := by
  unfold OpenAITextEmbedder.flush
  split
  next hnil => exact ⟨h, hnil⟩
  obtain ⟨sent, rfl, hsent⟩ := h.sent
  refine ⟨⟨rfl, ⟨sent ++ s.batch, by simp, ?_⟩, ?_, nofun, ?_⟩, rfl⟩
  . have hinputs := h.inputs s.batch (by simp)
    refine List.rel_append hsent (((List.forall₂_and_left _ _).2
      ⟨hinputs, e.embedBatch_aligned _ _⟩).imp fun item embedding hitem => ?_)
    rw [Embeds, if_neg (not_lt.2 hitem.1)]
    exact hitem.2
  . exact forall_mem_append.2 ⟨h.inputs, by simp [InputsFit]⟩
  . rw [forall_mem_append, forall_mem_singleton, h.requests, and_iff_left h.batch]

theorem Embedded.append (h : e.Embedded text s) (hitem : estTokens item ≤ e.inputTextTokenLimit)
    (hroom : s.batch = [] ∨ estTokens item + s.batchTokens < e.batchTokenLimit) :
    e.Embedded (text ++ [item])
      { s with batch := s.batch ++ [item], batchTokens := s.batchTokens + estTokens item } := by
  obtain ⟨sent, rfl, hsent⟩ := h.sent
  have htokens := h.tokens
  have hinputs := h.inputs
  simp only [forall_mem_append, forall_mem_singleton] at hinputs
  refine ⟨by simp [htokens], ⟨sent, by simp, hsent⟩, ?_, ?_, ?_⟩
  . simp only [forall_mem_append, forall_mem_singleton]
    exact ⟨hinputs.1, forall_mem_append.2 ⟨hinputs.2, forall_mem_singleton.2 hitem⟩⟩
  . intro hlen
    obtain hnil | hlt := hroom
    . simp [hnil] at hlen
    . simpa [htokens, add_comm] using hlt.le
  . simp [h.requests, ChunksFit, or_imp, forall_and, not_lt.2 hitem]

theorem Embedded.embedItem (h : e.Embedded text s) (item : Input) :
    e.Embedded (text ++ [item]) (e.embedItem s item) := by
  obtain ⟨hflushed, hnil⟩ := h.flush
  unfold OpenAITextEmbedder.embedItem
  split
  next hover =>
    obtain ⟨sent, htext, hsent⟩ := hflushed.sent
    rw [hnil, List.append_nil] at htext
    subst htext
    refine ⟨hflushed.tokens, ⟨text ++ [item], by simp [hnil], ?_⟩, ?_, hflushed.batch, ?_⟩
    . refine List.rel_append hsent (.cons ?_ .nil)
      rw [Embeds, if_pos hover]
      exact ⟨_, e.embedBatch_aligned _ _, rfl⟩
    . have hinputs := hflushed.inputs
      simp only [forall_mem_append, forall_mem_singleton] at hinputs ⊢
      exact ⟨⟨hinputs.1, inputsFit_chunks⟩, hinputs.2⟩
    . rw [forall_mem_append, hflushed.requests, forall_mem_singleton, BatchFits, sum_estTokens_chunks]
      simp [ChunksFit, or_imp, forall_and, hover, one_lt_length_chunks hover]
  next hitem =>
    dsimp only
    split
    . exact hflushed.append (not_lt.1 hitem) (.inl hnil)
    next hroom => exact h.append (not_lt.1 hitem) (.inr (not_le.1 hroom))

theorem Embedded.foldl (h : e.Embedded text s) (items : List Input) :
    e.Embedded (text ++ items) (items.foldl e.embedItem s) := by
  induction items generalizing text s with
  | nil => simpa using h
  | cons item items ih => simpa using ih (h.embedItem item)

theorem embedding_requests_bounded_iff (text : List (Option Input)) :
    Forall₂ e.Embeds (text.map (·.getD [])) (e.embedText text).embeddings ∧
        (∀ request ∈ (e.embedText text).requests, e.InputsFit request) ∧
        (∀ request ∈ (e.embedText text).requests, e.BatchFits request) ↔
      e.ChunksFit (text.map (·.getD [])) := by
  have hstart : e.Embedded [] {} := by
    constructor <;> simp [InputsFit, BatchFits, ChunksFit]
  obtain ⟨h, hnil⟩ := (hstart.foldl (text.map (·.getD []))).flush
  obtain ⟨sent, htext, hsent⟩ := h.sent
  rw [hnil, List.append_nil, List.nil_append] at htext
  subst htext
  rw [← List.nil_append (text.map _), ← h.requests]
  exact ⟨fun hall => hall.2.2, fun hfit => ⟨hsent, (forall_mem_append.1 h.inputs).1, hfit⟩⟩

theorem chunks_of_oversized_text_exceed_batch_limit :
    let e : OpenAITextEmbedder Unit fun _ _ => True := {
      batchTokenLimit := 1
      inputTextTokenLimit := 1
      embedBatch := fun _ texts => texts.map fun _ => ()
      average := fun _ _ => ()
      inputTextTokenLimit_pos := by decide
      embedBatch_aligned := fun _ _ => List.forall₂_map_right_iff.2 (List.forall₂_same.2 (by simp)) }
    ¬∀ request ∈ (e.embedText [some "abcdef".toList]).requests, e.BatchFits request := by
  intro e h
  exact absurd (h ["abc".toList, "def".toList] (by decide) (by decide)) (by decide)

end OpenAITextEmbedder

end Vane
