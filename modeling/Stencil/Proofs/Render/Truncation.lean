import Stencil.Proofs.Render.Congruence

/-!
# Truncation by a full sink

## What a sink keeps

Everything that rendering does to a sink is to hand over some bytes and to end
with some result, and neither depends on the sink.  A sink takes the bytes as
long as they fit; the first that does not fit ends the rendering with the fault
of a full sink.  So a bounded sink holds the first bytes of what an unbounded
sink holds, and its result differs exactly if something was cut off.
-/

namespace Stencil

def WhenFull.fault : WhenFull -> WriteFault
  | refuse => WriteFault.sinkFull
  | takeNothing => WriteFault.noProgress

namespace Sink

/-- The part of some bytes that still fits into a sink. -/
def fitting (s : Sink) (bytes : List UInt8) : List UInt8 :=
  match s.limit with
  | none => bytes
  | some limit => bytes.take (limit - s.accepted.size)

variable {s : Sink} {xs ys : List UInt8}

@[simp] theorem accept_limit (s : Sink) (xs : List UInt8) :
    (s.accept xs).limit = s.limit := rfl

@[simp] theorem accept_whenFull (s : Sink) (xs : List UInt8) :
    (s.accept xs).whenFull = s.whenFull := rfl

@[simp] theorem accept_nil (s : Sink) : s.accept [] = s := by
  simp [accept]

@[simp] theorem accept_accept (s : Sink) (xs ys : List UInt8) :
    (s.accept xs).accept ys = s.accept (xs ++ ys) := by
  simp [accept]

@[simp] theorem fitting_nil (s : Sink) : s.fitting [] = [] := by
  unfold fitting
  split
  · rfl
  · exact List.take_nil

theorem fitting_append_of_fits (h : s.fitting xs = xs) (ys : List UInt8) :
    s.fitting (xs ++ ys) = xs ++ (s.accept xs).fitting ys := by
  unfold fitting at h ⊢
  rw [accept_limit]
  split
  case h_1 => rfl
  case h_2 limit hlimit =>
    simp only [hlimit] at h
    rw [List.take_append, h]
    have hsize : (s.accept xs).accepted.size = s.accepted.size + xs.length := by
      simp [accept]
    rw [hsize, Nat.sub_sub]

theorem fitting_prefix (s : Sink) (xs : List UInt8) : s.fitting xs <+: xs := by
  unfold fitting
  split
  · exact List.prefix_rfl
  · exact List.take_prefix _ _

theorem fitting_append_of_not_fits (h : s.fitting xs ≠ xs) (ys : List UInt8) :
    s.fitting (xs ++ ys) = s.fitting xs := by
  unfold fitting at h ⊢
  split
  case h_1 hlimit =>
    simp [hlimit] at h
  case h_2 limit hlimit =>
    simp only [hlimit] at h
    have hlt : limit - s.accepted.size < xs.length :=
      Nat.lt_of_not_le fun hle => h (List.take_of_length_le hle)
    exact List.take_append_of_le_length (Nat.le_of_lt hlt)

theorem not_fits_append (h : s.fitting xs ≠ xs) (ys : List UInt8) :
    s.fitting (xs ++ ys) ≠ xs ++ ys := by
  rw [fitting_append_of_not_fits h]
  intro heq
  have hprefix : xs ++ ys <+: xs := heq ▸ s.fitting_prefix xs
  have hnil : ys = [] := by
    have hle := hprefix.length_le
    rw [List.length_append] at hle
    exact List.eq_nil_of_length_eq_zero (by omega)
  rw [hnil, List.append_nil] at heq
  exact h heq

/-!
## Writing a whole chunk
-/

theorem write_eq (s : Sink) (chunk : List UInt8) :
    s.write chunk =
      if s.fitting chunk = [] ∧ chunk ≠ [] ∧ s.whenFull = WhenFull.refuse then
        (Except.error WriteFault.sinkFull, s)
      else (Except.ok (s.fitting chunk).length, s.accept (s.fitting chunk)) := by
  unfold write fitting
  cases s.limit with
  | none =>
      rw [if_neg fun h => h.2.1 h.1]
  | some limit => rfl

theorem fitting_drop (s : Sink) (chunk : List UInt8) :
    (s.accept (s.fitting chunk)).fitting (chunk.drop (s.fitting chunk).length) =
      [] := by
  rcases s.fitting_prefix chunk with ⟨rest, hrest⟩
  generalize hpart : s.fitting chunk = part at hrest
  subst hrest
  rw [List.drop_left]
  by_cases h : s.fitting part = part
  · rw [fitting_append_of_fits h] at hpart
    simpa using hpart
  · rw [fitting_append_of_not_fits h] at hpart
    exact absurd hpart h

theorem writeAll_of_full {chunk : List UInt8} (h : s.fitting chunk = []) :
    s.writeAll chunk =
      if chunk = [] then (Except.ok (), s) else (Except.error s.whenFull.fault, s) := by
  rw [writeAll]
  split
  · rfl
  · rename_i hne
    rw [write_eq, h]
    cases hfull : s.whenFull with
    | refuse => simp [hne, WhenFull.fault]
    | takeNothing => simp [WhenFull.fault]

/-- A whole chunk is written as far as it fits. -/
theorem writeAll_eq (s : Sink) (chunk : List UInt8) :
    s.writeAll chunk =
      if s.fitting chunk = chunk then (Except.ok (), s.accept chunk)
      else (Except.error s.whenFull.fault, s.accept (s.fitting chunk)) := by
  cases hpart : s.fitting chunk with
  | nil =>
      rw [writeAll_of_full hpart]
      cases chunk with
      | nil => simp
      | cons b chunk => simp
  | cons b part =>
      have hne : chunk ≠ [] := by
        intro hnil
        subst hnil
        simp at hpart
      have hfull := s.fitting_drop chunk
      have hprefix := s.fitting_prefix chunk
      rw [hpart] at hfull hprefix
      have hall : chunk.drop (b :: part).length = [] ↔ b :: part = chunk := by
        rw [List.drop_eq_nil_iff]
        constructor
        · exact hprefix.eq_of_length_le
        · intro heq
          exact Nat.le_of_eq (congrArg List.length heq.symm)
      rw [writeAll, dif_neg hne, write_eq, if_neg (by simp [hpart]), hpart]
      show (s.accept (b :: part)).writeAll (chunk.drop (b :: part).length) = _
      rw [writeAll_of_full hfull]
      by_cases h : b :: part = chunk
      · rw [if_pos (hall.mpr h), if_pos h, h]
      · rw [if_neg (fun hnil => h (hall.mp hnil)), if_neg h, accept_whenFull]

/-- Hands some bytes over to a sink; `result` follows if all of them fit. -/
def deliver (s : Sink) (bytes : List UInt8) (result : Except RenderError Unit) :
    Except RenderError Unit × Sink :=
  if s.fitting bytes = bytes then (result, s.accept bytes)
  else
    (Except.error (RenderError.write s.whenFull.fault), s.accept (s.fitting bytes))

theorem deliver_nil (s : Sink) (result : Except RenderError Unit) :
    s.deliver [] result = (result, s) := by
  simp [deliver]

theorem deliver_append_of_fits (h : s.fitting xs = xs) (ys : List UInt8)
    (result : Except RenderError Unit) :
    s.deliver (xs ++ ys) result = (s.accept xs).deliver ys result := by
  unfold deliver
  rw [fitting_append_of_fits h]
  simp

theorem deliver_append_of_not_fits (h : s.fitting xs ≠ xs) (ys : List UInt8)
    (result result' : Except RenderError Unit) :
    s.deliver (xs ++ ys) result = s.deliver xs result' := by
  unfold deliver
  rw [if_neg (not_fits_append h ys), if_neg h, fitting_append_of_not_fits h]

end Sink

/-!
## Actions that only hand over bytes
-/

namespace Action

/-- The action hands over some bytes and ends with a result, whatever the sink. -/
def Delivers (a : Action) (bytes : List UInt8) (result : Except RenderError Unit) :
    Prop :=
  forall p, ((a p).1, (a p).2.sink) = p.sink.deliver bytes result

def IsDelivery (a : Action) : Prop :=
  exists bytes result, a.Delivers bytes result

theorem delivers_done : Delivers done [] (Except.ok ()) := by
  intro p
  rw [Sink.deliver_nil]
  rfl

theorem delivers_skip (name : Text) : Delivers (skip name) [] (Except.ok ()) := by
  intro p
  rw [Sink.deliver_nil]
  rfl

theorem delivers_fail (e : RenderError) : Delivers (fail e) [] (Except.error e) := by
  intro p
  rw [Sink.deliver_nil]
  rfl

theorem delivers_emit (s : Text) : Delivers (emit s) (Text.utf8 s) (Except.ok ()) := by
  intro p
  by_cases hfits : p.sink.fitting (Text.utf8 s) = Text.utf8 s
  · simp only [emit, Sink.deliver, Sink.writeAll_eq, if_pos hfits]
  · simp only [emit, Sink.deliver, Sink.writeAll_eq, if_neg hfits]

variable {a b : Action} {xs ys : List UInt8} {result : Except RenderError Unit}

theorem Delivers.eq_of_fits {p : Progress} (h : Delivers a xs result)
    (hfits : p.sink.fitting xs = xs) :
    (a p).1 = result ∧ (a p).2.sink = p.sink.accept xs := by
  have hp := h p
  rw [Sink.deliver, if_pos hfits] at hp
  exact Prod.mk.inj hp

theorem Delivers.eq_of_not_fits {p : Progress} (h : Delivers a xs result)
    (hfits : p.sink.fitting xs ≠ xs) :
    (a p).1 = Except.error (RenderError.write p.sink.whenFull.fault) := by
  have hp := h p
  rw [Sink.deliver, if_neg hfits] at hp
  exact (Prod.mk.inj hp).1

theorem Delivers.andThen (ha : Delivers a xs (Except.ok ()))
    (hb : Delivers b ys result) : Delivers (andThen a b) (xs ++ ys) result := by
  intro p
  by_cases hfits : p.sink.fitting xs = xs
  · rcases ha.eq_of_fits hfits with ⟨hok, hsink⟩
    rw [andThen_of_ok hok, hb, hsink, Sink.deliver_append_of_fits hfits]
  · rw [andThen_of_error (ha.eq_of_not_fits hfits), ha,
      Sink.deliver_append_of_not_fits hfits]

theorem Delivers.andThen_error {e : RenderError} (ha : Delivers a xs (Except.error e))
    (b : Action) : Delivers (Action.andThen a b) xs (Except.error e) := by
  intro p
  by_cases hfits : p.sink.fitting xs = xs
  · rw [andThen_of_error (ha.eq_of_fits hfits).1, ha]
  · rw [andThen_of_error (ha.eq_of_not_fits hfits), ha]

theorem IsDelivery.andThen (ha : IsDelivery a) (hb : IsDelivery b) :
    IsDelivery (Action.andThen a b) := by
  rcases ha with ⟨xs, resultA, ha⟩
  rcases hb with ⟨ys, resultB, hb⟩
  cases resultA with
  | ok u => exact ⟨xs ++ ys, resultB, ha.andThen hb⟩
  | error e => exact ⟨xs, Except.error e, ha.andThen_error b⟩

end Action

/-!
## Rendering only hands over bytes
-/

theorem Action.congruence_isDelivery :
    Action.Congruence fun a _ => a.IsDelivery := by
  refine ⟨⟨_, _, delivers_done⟩, fun s => ⟨_, _, delivers_emit s⟩, ?_⟩
  intro a _ b _ ha hb
  exact ha.andThen hb

theorem Node.isDelivery_renderAll {embedding : Embedding}
    (hembed : forall name scopes, (embedding name scopes).IsDelivery)
    (nodes : List Node) (scopes : Scopes) :
    (renderAll embedding nodes scopes).IsDelivery :=
  renderAll_induction Action.congruence_isDelivery nodes
    (fun name _ scopes => hembed name scopes) scopes

theorem Registry.isDelivery_embedding (reg : Registry) (levels : Nat) (name : Text)
    (scopes : Scopes) : (reg.embedding levels name scopes).IsDelivery :=
  embedding_induction Action.congruence_isDelivery
    (fun name => ⟨_, _, Action.delivers_skip name⟩)
    (fun _ => ⟨_, _, Action.delivers_fail _⟩) reg levels name scopes

/-!
## Bounded sinks
-/

theorem Sink.deliver_unbounded (bytes : List UInt8) (result : Except RenderError Unit) :
    unbounded.deliver bytes result = (result, unbounded.accept bytes) :=
  if_pos rfl

theorem Sink.deliver_bounded (limit : Nat) (whenFull : WhenFull) (bytes : List UInt8)
    (result : Except RenderError Unit) :
    (bounded limit whenFull).deliver bytes result =
      (if limit < bytes.length then Except.error (RenderError.write whenFull.fault)
        else result,
        (bounded limit whenFull).accept (bytes.take limit)) := by
  have hfitting : (bounded limit whenFull).fitting bytes = bytes.take limit := rfl
  rw [deliver, hfitting]
  by_cases h : limit < bytes.length
  · have hne : bytes.take limit ≠ bytes := by
      intro heq
      have hlength := congrArg List.length heq
      rw [List.length_take] at hlength
      omega
    rw [if_neg hne, if_pos h]
    rfl
  · have heq : bytes.take limit = bytes := List.take_of_length_le (by omega)
    rw [if_pos heq, if_neg h, heq]

theorem Action.IsDelivery.truncated {a : Action} (h : a.IsDelivery) (limit : Nat)
    (whenFull : WhenFull) :
    (a (Progress.start (Sink.bounded limit whenFull))).2.sink.accepted =
        (a (Progress.start Sink.unbounded)).2.sink.accepted.take limit ∧
      (a (Progress.start (Sink.bounded limit whenFull))).1 =
        if limit < (a (Progress.start Sink.unbounded)).2.sink.accepted.size then
          Except.error (RenderError.write whenFull.fault)
        else (a (Progress.start Sink.unbounded)).1 := by
  rcases h with ⟨bytes, result, hdelivers⟩
  have hfull := hdelivers (Progress.start Sink.unbounded)
  have hcut := hdelivers (Progress.start (Sink.bounded limit whenFull))
  simp only [Progress.start, Sink.deliver_unbounded] at hfull
  simp only [Progress.start, Sink.deliver_bounded] at hcut
  rcases Prod.mk.inj hfull with ⟨hresult, hsink⟩
  rcases Prod.mk.inj hcut with ⟨hresult', hsink'⟩
  rw [Progress.start, Progress.start, hresult, hsink, hresult', hsink']
  constructor
  · simp [Sink.accept, Sink.unbounded, Sink.bounded]
  · simp [Sink.accept, Sink.unbounded]

/-- A sink that takes at most `limit` bytes ends up with the first `limit` bytes of
what a sink without a limit gets.  The result is the same if that is all of them,
and otherwise it is the fault of a full sink. -/
theorem Sink.bounded_execute_truncates (data : Value) (limit : Nat)
    (whenFull : WhenFull) :
    (forall t : Template,
      (t.execute data (bounded limit whenFull)).2.accepted =
          (t.execute data unbounded).2.accepted.take limit ∧
        (t.execute data (bounded limit whenFull)).1 =
          if limit < (t.execute data unbounded).2.accepted.size then
            Except.error (RenderError.write whenFull.fault)
          else (t.execute data unbounded).1) ∧
      forall (reg : Registry) (name : Text),
        (reg.execute name data (bounded limit whenFull)).2.sink.accepted =
            (reg.execute name data unbounded).2.sink.accepted.take limit ∧
          (reg.execute name data (bounded limit whenFull)).1 =
            if limit < (reg.execute name data unbounded).2.sink.accepted.size then
              Except.error (Failure.render (RenderError.write whenFull.fault))
            else (reg.execute name data unbounded).1 := by
  constructor
  · intro t
    have hdelivery := Node.isDelivery_renderAll
      (fun _ _ => ⟨_, _, Action.delivers_done⟩ :
        forall name scopes, (Embedding.nothing name scopes).IsDelivery)
      t.nodes (Scopes.ofRoot data)
    exact hdelivery.truncated limit whenFull
  · intro reg name
    unfold Registry.execute
    cases reg.find? name with
    | none =>
        simp [Progress.start, unbounded, bounded]
    | some t =>
        have hdelivery := Node.isDelivery_renderAll
          (reg.isDelivery_embedding embedDepthLimit) t.nodes (Scopes.ofRoot data)
        rcases hdelivery.truncated limit whenFull with ⟨haccepted, hresult⟩
        refine ⟨haccepted, ?_⟩
        simp only [Registry.finish, Registry.run]
        rw [hresult]
        exact apply_ite (Except.mapError Failure.render) _ _ _

end Stencil
