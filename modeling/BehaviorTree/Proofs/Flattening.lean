import BehaviorTree.Proofs.Cursors
import BehaviorTree.Proofs.Exchanging

/-!
# Flattening composites

A composite among the children of a composite of its kind, with the same `cascade`, does nothing
that the outer one would not do with its children: they go on at the same outcomes, and what the
inner one comes to at its end is what the outer one goes on at.  Two cursors stand for one, the
outer one for the children before and behind, the inner one for those between.

* `Branch.pollOn` — how polling the children of a composite goes on to those behind.
  **`Branch.pollFrom_append`**: polling a list of children is polling its first part and going on to
  the second one.
* `Branch.Spliced` — the children and the cursor of the nested composite, and those of the flat one.
* **`Branch.Spliced.pollFrom`** — polling them comes to the same.
* **`interchange_levelled`** — the nested composite and the flat one may stand for each other.
* **`Fresh.flattens`** — so trees that have them at the same places run alike.
-/

namespace BehaviorTree

open Branch

variable {L δ : Type}

/-! ## Polling one list of children and then another -/

/-- The outcome for a list of children that has others in front, of which some have been left behind
meanwhile. -/
def Outcome.behind (moves : Nat) (us : List (Branch (Node L)))
    (o : Outcome (Nat × List (Branch (Node L))) δ) : Outcome (Nat × List (Branch (Node L))) δ :=
  o.map fun p => (moves + p.1, us ++ p.2)

section PollOn

variable [Behavior L δ] {id : NodeId} {kind : CompositeKind} {cascade : Bool}

/-- Goes on to further children of a composite, given what polling those before has come to. -/
def Branch.pollOn (id : NodeId) (kind : CompositeKind) (cascade : Bool)
    (o : Outcome (Nat × List (Branch (Node L))) δ) (ts : List (Branch (Node L))) :
    Outcome (Nat × List (Branch (Node L))) δ :=
  if o.status ≠ kind.advancesOn then o.map fun p => (p.1, p.2 ++ ts)
  else if ts.isEmpty then o
  else if cascade then
    ((pollFrom id kind cascade 0 ts o.scene).behind o.part.1 o.part.2).after o.trace
  else ⟨.running, (o.part.1, o.part.2 ++ ts), o.scene, o.trace ++ [.advance id]⟩

section Cases

variable {o : Outcome (Nat × List (Branch (Node L))) δ} {t : Branch (Node L)}
  {ts : List (Branch (Node L))}

lemma Branch.pollOn_stops (h : o.status ≠ kind.advancesOn) :
    pollOn id kind cascade o ts = o.map fun p => (p.1, p.2 ++ ts) := if_pos h

lemma Branch.pollOn_ends (h : o.status = kind.advancesOn) : pollOn id kind cascade o [] = o :=
  (if_neg (not_not.mpr h)).trans (if_pos rfl)

lemma Branch.pollOn_cascades (h : o.status = kind.advancesOn) :
    pollOn id kind true o (t :: ts) =
      ((pollFrom id kind true 0 (t :: ts) o.scene).behind o.part.1 o.part.2).after o.trace :=
  if_neg (not_not.mpr h)

lemma Branch.pollOn_pauses (h : o.status = kind.advancesOn) :
    pollOn id kind false o (t :: ts) =
      ⟨.running, (o.part.1, o.part.2 ++ t :: ts), o.scene, o.trace ++ [.advance id]⟩ :=
  if_neg (not_not.mpr h)

/-- Going on is the same with other children in front. -/
lemma Branch.pollOn_behind (moves : Nat) (us : List (Branch (Node L))) (earlier : Trace) :
    pollOn id kind cascade ((o.behind moves us).after earlier) ts =
      ((pollOn id kind cascade o ts).behind moves us).after earlier := by
  by_cases h : o.status = kind.advancesOn
  · cases ts with
    | nil => rw [pollOn_ends h, pollOn_ends (by exact h)]
    | cons t ts =>
        cases cascade with
        | true =>
            rw [pollOn_cascades h, pollOn_cascades (by exact h)]
            simp [Outcome.behind, Outcome.map, Outcome.after, Nat.add_assoc]
        | false =>
            rw [pollOn_pauses h, pollOn_pauses (by exact h)]
            simp [Outcome.behind, Outcome.map, Outcome.after]
  · rw [pollOn_stops h, pollOn_stops (by exact h)]
    simp [Outcome.behind, Outcome.map, Outcome.after]

end Cases

section Append

variable (id kind cascade)

/-- An only child is left behind if it comes to what the composite goes on at. -/
lemma Branch.pollFrom_singleton (t : Branch (Node L)) (scene : Scene δ) :
    pollFrom id kind cascade 0 [t] scene = (t.poll scene).map fun u =>
      (if (t.poll scene).status = kind.advancesOn then 1 else 0, [u]) := by
  split
  · next h => exact pollFrom_ends h
  · next h => exact pollFrom_stops h

/-- A child before the cursor is passed over. -/
lemma Branch.pollFrom_succ (skip : Nat) (t : Branch (Node L)) (ts : List (Branch (Node L)))
    (scene : Scene δ) :
    pollFrom id kind cascade (skip + 1) (t :: ts) scene =
      (pollFrom id kind cascade skip ts scene).behind 0 [t] := by
  rw [pollFrom, Outcome.behind]
  simp only [Nat.zero_add, List.singleton_append]

/-- Children before the cursor are passed over. -/
lemma Branch.pollFrom_behind (us : List (Branch (Node L))) (skip : Nat)
    (ts : List (Branch (Node L))) (scene : Scene δ) :
    pollFrom id kind cascade (us.length + skip) (us ++ ts) scene =
      (pollFrom id kind cascade skip ts scene).behind 0 us := by
  induction us with
  | nil => simp [Outcome.behind, Outcome.map]
  | cons u us ih =>
      rw [List.length_cons, Nat.add_right_comm, List.cons_append, pollFrom_succ, ih]
      simp [Outcome.behind, Outcome.map]

/-- **Polling children is polling the first of them and going on to the others.** -/
theorem Branch.pollFrom_append {skip : Nat} {us : List (Branch (Node L))}
    (hskip : skip < us.length) (ts : List (Branch (Node L))) (scene : Scene δ) :
    pollFrom id kind cascade skip (us ++ ts) scene =
      pollOn id kind cascade (pollFrom id kind cascade skip us scene) ts := by
  induction us generalizing skip scene with
  | nil => cases hskip
  | cons u us ih =>
      cases skip with
      | succ skip =>
          rw [List.cons_append, pollFrom_succ, pollFrom_succ,
            ih (Nat.lt_of_succ_lt_succ hskip) scene]
          exact (pollOn_behind 0 [u] []).symm
      | zero =>
          by_cases h : (u.poll scene).status = kind.advancesOn
          · cases us with
            | nil =>
                rw [pollFrom_ends h]
                cases ts with
                | nil => rw [pollOn_ends (by exact h), List.append_nil, pollFrom_ends h]
                | cons t ts =>
                    cases cascade with
                    | true =>
                        rw [pollOn_cascades (by exact h), List.singleton_append,
                          pollFrom_cascades h rfl]
                        simp [Outcome.behind, Outcome.map, Outcome.after, Nat.add_comm]
                    | false =>
                        rw [pollOn_pauses (by exact h), List.singleton_append,
                          pollFrom_pauses h rfl]
                        rfl
            | cons v us =>
                have hrest := ih (Nat.succ_pos us.length) (u.poll scene).scene
                cases cascade with
                | true =>
                    have hbehind : pollOn id kind true
                        (((Branch.pollFrom id kind true 0 (v :: us)
                          (u.poll scene).scene).behind 1 [(u.poll scene).part]).after
                          (u.poll scene).trace) ts = _ := pollOn_behind _ _ _
                    rw [← hrest] at hbehind
                    rw [List.cons_append, List.cons_append, pollFrom_cascades h rfl,
                      pollFrom_cascades h rfl]
                    simpa [Outcome.behind, Nat.add_comm] using hbehind.symm
                | false =>
                    rw [List.cons_append, List.cons_append, pollFrom_pauses h rfl,
                      pollFrom_pauses h rfl, pollOn_stops (Ne.symm kind.advancesOn_ne_running)]
                    rfl
          · rw [List.cons_append, pollFrom_stops h, pollFrom_stops h, pollOn_stops (by exact h)]
            rfl

end Append

/-- A composite is at its end once it has come to the outcome that it goes on at. -/
lemma Onward.moves_of_advances {skip : Nat} {ts : List (Branch (Node L))} {scene : Scene δ}
    {o : Outcome (Nat × List (Branch (Node L))) δ} (h : Onward id kind cascade skip ts scene o)
    (hskip : skip ≤ ts.length) (hstatus : o.status = kind.advancesOn) :
    skip + o.part.1 = ts.length := by
  induction h with
  | exhausted => exact Nat.le_zero.mp hskip
  | skips _ ih =>
      have hend := ih (Nat.le_of_succ_le_succ hskip) hstatus
      simp only [Outcome.part_map, List.length_cons]
      omega
  | stops hne => exact absurd hstatus hne
  | ends => rfl
  | cascades _ _ _ ih =>
      have hend := ih (Nat.zero_le _) hstatus
      simp only [Outcome.part_after, Outcome.part_map, List.length_cons] at hend ⊢
      omega
  | pauses => exact absurd hstatus.symm kind.advancesOn_ne_running

/-- Going on comes to the same where what polling the children before has come to does, and where
polling those behind does. -/
lemma Outcome.Matches.pollOn {id' : NodeId} {S T U : Status → Nat × List (Branch (Node L)) →
      Nat × List (Branch (Node L)) → Prop}
    {o o' : Outcome (Nat × List (Branch (Node L))) δ} {ts ts' : List (Branch (Node L))}
    (ho : o.Matches (S o.status) o') (hnil : ts = [] ↔ ts' = [])
    (hts : ∀ scene : Scene δ, (Branch.pollFrom id kind cascade 0 ts scene).Matches
      (T (Branch.pollFrom id kind cascade 0 ts scene).status)
      (Branch.pollFrom id' kind cascade 0 ts' scene))
    (hstops : ∀ {s p p'}, s ≠ kind.advancesOn → S s p p' → U s (p.1, p.2 ++ ts) (p'.1, p'.2 ++ ts'))
    (hends : ∀ {p p'}, ts = [] → ts' = [] → S kind.advancesOn p p' → U kind.advancesOn p p')
    (hcascades : ∀ {s p p' q q'}, S kind.advancesOn p p' → T s q q' →
      U s (p.1 + q.1, p.2 ++ q.2) (p'.1 + q'.1, p'.2 ++ q'.2))
    (hpauses : ∀ {p p'}, ts ≠ [] → S kind.advancesOn p p' →
      U .running (p.1, p.2 ++ ts) (p'.1, p'.2 ++ ts')) :
    (Branch.pollOn id kind cascade o ts).Matches
      (U (Branch.pollOn id kind cascade o ts).status) (Branch.pollOn id' kind cascade o' ts') := by
  have hquiet : ∀ id : NodeId, Trace.hookCalls [.advance id] = [] := fun _ => rfl
  by_cases h : o.status = kind.advancesOn
  · have h' : o'.status = kind.advancesOn := ho.status.trans h
    have hpart := ho.part
    rw [h] at hpart
    cases ts with
    | nil =>
        obtain rfl := hnil.mp rfl
        rw [pollOn_ends h, pollOn_ends h', h]
        exact ⟨ho.status, ho.scene, ho.calls, hends rfl rfl hpart⟩
    | cons t ts =>
        obtain ⟨t', us', rfl⟩ : ∃ t' us', ts' = t' :: us' :=
          List.exists_cons_of_ne_nil fun hts' => List.cons_ne_nil t ts (hnil.mpr hts')
        cases cascade with
        | true =>
            rw [pollOn_cascades h, pollOn_cascades h', ho.scene]
            have hlater := hts o.scene
            exact (hlater.map fun q q' hq => hcascades hpart hq).after ho.calls
        | false =>
            rw [pollOn_pauses h, pollOn_pauses h']
            refine ⟨rfl, ho.scene, ?_, hpauses (List.cons_ne_nil _ _) hpart⟩
            simp only [Trace.hookCalls_append, hquiet, ho.calls]
  · have h' : o'.status ≠ kind.advancesOn := fun heq => h (ho.status.symm.trans heq)
    rw [pollOn_stops h, pollOn_stops h']
    exact ⟨ho.status, ho.scene, ho.calls, hstops h ho.part⟩

end PollOn

/-! ## Nested composites -/

/-- The children of a composite and its cursor, where one of the children is a composite of its kind
that cascades alike, and those of the composite that has the children of the inner one in its place.
The inner one has an activation under way only where the outer one has, and is at it; and as long as
that is so the cursor of the flat one is at the child that is in turn. -/
inductive Branch.Spliced (Q : Branch (Node L) → Branch (Node L) → Prop) (kind : CompositeKind)
    (cascade : Bool) (underway : Bool) : Nat × List (Branch (Node L)) →
    Nat × List (Branch (Node L)) → Prop
  | mk {m : Node L} {xs ys zs xs' ys' zs' : List (Branch (Node L))} {cursor inner flat : Nat} :
    ys ≠ [] → m.kind = .composite kind cascade inner →
    List.Forall₂ Q xs xs' → List.Forall₂ Q ys ys' → List.Forall₂ Q zs zs' →
    (m.state.started = true → underway = true ∧ cursor = xs.length ∧ inner < ys.length) →
    (underway = true → flat = if cursor ≤ xs.length
      then cursor + (if m.state.started then inner else 0) else cursor - 1 + ys.length) →
    Spliced Q kind cascade underway (cursor, xs ++ node m ys :: zs) (flat, xs' ++ (ys' ++ zs'))

section Spliced

variable {Q : Branch (Node L) → Branch (Node L) → Prop} {kind : CompositeKind} {cascade : Bool}
  {underway : Bool} {p p' : Nat × List (Branch (Node L))}

/-- The same with other children in front, which are all left behind. -/
lemma Branch.Spliced.behind (h : Spliced Q kind cascade underway p p')
    {us us' : List (Branch (Node L))} (hus : List.Forall₂ Q us us') :
    Spliced Q kind cascade underway (us.length + p.1, us ++ p.2)
      (us.length + p'.1, us' ++ p'.2) := by
  obtain @⟨m, xs, ys, zs, xs', ys', zs', cursor, inner, flat, hys, hm, hxs, hys', hzs, hstarted,
    hflat⟩ := h
  have hlen : (us ++ xs).length = us.length + xs.length := List.length_append
  rw [← List.append_assoc us, ← List.append_assoc us']
  refine .mk hys hm (List.rel_append hus hxs) hys' hzs (fun hs => ?_) fun hu => ?_
  · obtain ⟨hu, hcursor, hinner⟩ := hstarted hs
    exact ⟨hu, by omega, hinner⟩
  · have := hflat hu
    split at this <;> split <;> omega

/-- The inner composite has not been reached. -/
lemma Branch.spliced_before {m : Node L} {xs ys zs xs' ys' zs' : List (Branch (Node L))}
    {inner cursor : Nat} (hys : ys ≠ []) (hm : m.kind = .composite kind cascade inner)
    (hidle : m.state.started = false) (hxs : List.Forall₂ Q xs xs') (hys' : List.Forall₂ Q ys ys')
    (hzs : List.Forall₂ Q zs zs') (hcursor : cursor ≤ xs.length) (underway : Bool) :
    Spliced Q kind cascade underway (cursor, xs ++ node m ys :: zs)
      (cursor, xs' ++ (ys' ++ zs')) := by
  refine .mk hys hm hxs hys' hzs (fun hs => ?_) fun _ => ?_
  · rw [hidle] at hs
    cases hs
  · rw [if_pos hcursor, hidle]
    rfl

/-- The inner composite has been left behind. -/
lemma Branch.spliced_behind {m : Node L} {xs ys zs xs' ys' zs' : List (Branch (Node L))}
    {inner : Nat} (hys : ys ≠ []) (hm : m.kind = .composite kind cascade inner)
    (hidle : m.state.started = false) (hxs : List.Forall₂ Q xs xs') (hys' : List.Forall₂ Q ys ys')
    (hzs : List.Forall₂ Q zs zs') (k : Nat) (underway : Bool) :
    Spliced Q kind cascade underway (xs.length + 1 + k, xs ++ node m ys :: zs)
      (xs.length + ys.length + k, xs' ++ (ys' ++ zs')) := by
  refine .mk hys hm hxs hys' hzs (fun hs => ?_) fun _ => ?_
  · rw [hidle] at hs
    cases hs
  · rw [if_neg (by omega)]
    omega

/-- An inner composite with all of its children before the first one behind it. -/
structure Branch.Wrapped (Q : Branch (Node L) → Branch (Node L) → Prop) (kind : CompositeKind)
    (cascade : Bool) (skip : Nat) (status : Status) (p p' : Nat × List (Branch (Node L))) :
    Prop where
  moves : p.1 = if status = kind.advancesOn then 1 else 0
  part : ∃ m ys, p.2 = [node m ys] ∧ m.kind = .composite kind cascade (skip + p'.1) ∧
    m.state.started = status.isRunning ∧ List.Forall₂ Q ys p'.2
  nonempty : p'.2 ≠ []
  within : status = .running → skip + p'.1 < p'.2.length
  atEnd : status = kind.advancesOn → skip + p'.1 = p'.2.length

/-- The inner composite has not come to its end: the cursors of both are at the child in turn. -/
lemma Branch.Wrapped.spliced {skip : Nat} {status : Status}
    (h : Wrapped Q kind cascade skip status p p') (hstatus : status ≠ kind.advancesOn)
    {zs zs' : List (Branch (Node L))} (hzs : List.Forall₂ Q zs zs') :
    Spliced Q kind cascade status.isRunning (p.1, p.2 ++ zs) (skip + p'.1, p'.2 ++ zs') := by
  obtain ⟨moves, us⟩ := p
  obtain ⟨hmoves, ⟨m, ys, hpart, hm, hstarted, hys⟩, hnonempty, hwithin, -⟩ := h
  obtain rfl : us = [node m ys] := hpart
  obtain rfl : moves = 0 := hmoves.trans (if_neg hstatus)
  have hsome : ys ≠ [] := fun hnil => hnonempty (List.forall₂_nil_left_iff.mp (hnil ▸ hys))
  change Spliced Q kind cascade status.isRunning (0, [] ++ node m ys :: zs)
    (skip + p'.1, [] ++ (p'.2 ++ zs'))
  refine .mk hsome hm .nil hys hzs (fun hs => ?_) fun hrunning => ?_
  · rw [hstarted] at hs
    exact ⟨hs, rfl, hys.length_eq ▸ hwithin (Status.isRunning_iff.mp hs)⟩
  · rw [if_pos (Nat.zero_le _), hstarted, if_pos hrunning, Nat.zero_add]

/-- The inner composite has come to its end: both have left all of its children behind. -/
lemma Branch.Wrapped.spliced_past {skip : Nat}
    (h : Wrapped Q kind cascade skip kind.advancesOn p p')
    {zs zs' : List (Branch (Node L))} (hzs : List.Forall₂ Q zs zs') (underway : Bool) (k : Nat) :
    Spliced Q kind cascade underway (p.1 + k, p.2 ++ zs) (skip + (p'.1 + k), p'.2 ++ zs') := by
  obtain ⟨moves, us⟩ := p
  obtain ⟨hmoves, ⟨m, ys, hpart, hm, hstarted, hys⟩, hnonempty, -, hend⟩ := h
  obtain rfl : us = [node m ys] := hpart
  obtain rfl : moves = 1 := hmoves.trans (if_pos rfl)
  have hsome : ys ≠ [] := fun hnil => hnonempty (List.forall₂_nil_left_iff.mp (hnil ▸ hys))
  have hidle : kind.advancesOn.isRunning = false := by cases kind <;> rfl
  change Spliced Q kind cascade underway (1 + k, [] ++ node m ys :: zs)
    (skip + (p'.1 + k), [] ++ (p'.2 ++ zs'))
  refine .mk hsome hm .nil hys hzs (fun hs => ?_) fun _ => ?_
  · rw [hstarted, hidle] at hs
    cases hs
  · have hat := hend rfl
    have hlen := hys.length_eq
    rw [if_neg (by simp)]
    omega

variable [Behavior L δ] (hQ : Interchange (δ := δ) Q) (id id' : NodeId)

include hQ

lemma Branch.pollFrom_related {us us' : List (Branch (Node L))} (hus : List.Forall₂ Q us us')
    (skip : Nat) (scene : Scene δ) :
    (Branch.pollFrom id kind cascade skip us scene).Matches
      (fun p p' => p'.1 = p.1 ∧ List.Forall₂ Q p.2 p'.2)
      (Branch.pollFrom id' kind cascade skip us' scene) :=
  pollFrom_inStep (f := fun s => s) (fun _ => Iff.rfl) rfl
    (hus.imp fun _ _ h => ⟨h, fun scene => hQ.poll h scene⟩) id id' cascade skip scene

/-- Polling an inner composite is polling its children from the one in turn on. -/
lemma Branch.pollFrom_wrapped {m : Node L} {ys ys' : List (Branch (Node L))} {inner : Nat}
    (hm : m.kind = .composite kind cascade inner) (hys : List.Forall₂ Q ys ys')
    (hinner : (if m.state.started then inner else 0) < ys.length) (scene : Scene δ) :
    (Branch.pollFrom id kind cascade 0 [node m ys] scene).Matches
      (Wrapped Q kind cascade (if m.state.started then inner else 0)
        (Branch.pollFrom id kind cascade 0 [node m ys] scene).status)
      (Branch.pollFrom id' kind cascade (if m.state.started then inner else 0) ys' scene) := by
  obtain ⟨mid, mkind, state⟩ := m
  simp only at hm hinner
  subst hm
  simp only
  have hpoll := poll_matches_composite mid kind cascade inner state ys scene
  generalize (if state.started then inner else 0) = skip at hinner hpoll ⊢
  have hbelow : (Branch.pollFrom mid kind cascade skip ys scene).Matches _
      (Branch.pollFrom id' kind cascade skip ys' scene) :=
    pollFrom_related hQ mid id' hys skip scene
  have honward := pollFrom_onward mid kind cascade skip ys scene
  have hwithin := honward.moves_le (Nat.le_of_lt hinner)
  have hend := honward.moves_of_advances (Nat.le_of_lt hinner)
  have hlen := hbelow.part.2.length_eq
  rw [honward.length_part] at hlen
  rw [pollFrom_singleton]
  obtain ⟨hstatus, hscene, hcalls, state', hstarted, hpart⟩ := hpoll
  refine ⟨hbelow.status.trans hstatus.symm, hbelow.scene.trans hscene.symm,
    hbelow.calls.trans hcalls.symm, ⟨rfl, ?_, ?_, fun hrunning => ?_, fun hadvances => ?_⟩⟩
  · refine ⟨_, _, congrArg (fun t => [t]) hpart, ?_, hstarted, hbelow.part.2⟩
    rw [hbelow.part.1]
  · rintro hnil
    rw [hnil, List.length_nil] at hlen
    omega
  · rw [hbelow.part.1, ← hlen]
    exact hwithin.2 hinner (hstatus.symm.trans hrunning)
  · rw [hbelow.part.1, ← hlen]
    exact hend (hstatus.symm.trans hadvances)

/-- Polling from an inner composite on is polling from its children on. -/
lemma Branch.pollFrom_spliced_here {m : Node L} {ys ys' zs zs' : List (Branch (Node L))}
    {inner : Nat} (hm : m.kind = .composite kind cascade inner) (hys : List.Forall₂ Q ys ys')
    (hinner : (if m.state.started then inner else 0) < ys.length) (hzs : List.Forall₂ Q zs zs')
    (scene : Scene δ) :
    (Branch.pollFrom id kind cascade 0 (node m ys :: zs) scene).Matches
      (fun p p' => Spliced Q kind cascade
        (Branch.pollFrom id kind cascade 0 (node m ys :: zs) scene).status.isRunning p
        ((if m.state.started then inner else 0) + p'.1, p'.2))
      (Branch.pollFrom id' kind cascade (if m.state.started then inner else 0) (ys' ++ zs')
        scene) := by
  have hwrapped := pollFrom_wrapped hQ id id' hm hys hinner scene
  generalize (if m.state.started then inner else 0) = skip at hinner hwrapped ⊢
  have hnested := pollFrom_append id kind cascade (List.length_singleton ▸ Nat.one_pos :
    0 < [node m ys].length) zs scene
  have hflat := pollFrom_append id' kind cascade (hys.length_eq ▸ hinner) zs' scene
  rw [List.singleton_append] at hnested
  rw [hnested, hflat]
  have hnil : zs = [] ↔ zs' = [] := by
    rw [← List.length_eq_zero_iff, hzs.length_eq, List.length_eq_zero_iff]
  refine hwrapped.pollOn (T := fun _ q q' => q'.1 = q.1 ∧ List.Forall₂ Q q.2 q'.2)
    (U := fun s p p' => Spliced Q kind cascade s.isRunning p (skip + p'.1, p'.2)) hnil
    (pollFrom_related hQ id id' hzs 0) ?stops ?ends ?cascades ?pauses
  case stops => exact fun hs hp => hp.spliced hs hzs
  case ends =>
    rintro p p' rfl rfl hp
    have hpast := hp.spliced_past .nil kind.advancesOn.isRunning 0
    rwa [List.append_nil, List.append_nil] at hpast
  case cascades =>
    rintro s p p' q ⟨moves, us⟩ hp ⟨hmoves, hq⟩
    obtain rfl : moves = q.1 := hmoves
    exact hp.spliced_past hq s.isRunning q.1
  case pauses => exact fun _ hp => hp.spliced_past hzs true 0

/-- Polling from a child in front of an inner composite on, which goes on to the inner one. -/
lemma Branch.pollFrom_spliced_front {m : Node L} {xs xs' ys ys' zs zs' : List (Branch (Node L))}
    {inner cursor : Nat} (hys : ys ≠ []) (hm : m.kind = .composite kind cascade inner)
    (hidle : m.state.started = false) (hxs : List.Forall₂ Q xs xs') (hys' : List.Forall₂ Q ys ys')
    (hzs : List.Forall₂ Q zs zs') (hcursor : cursor < xs.length) (scene : Scene δ) :
    (Branch.pollFrom id kind cascade cursor (xs ++ node m ys :: zs) scene).Matches
      (fun p p' => Spliced Q kind cascade
        (Branch.pollFrom id kind cascade cursor (xs ++ node m ys :: zs) scene).status.isRunning
        (cursor + p.1, p.2) (cursor + p'.1, p'.2))
      (Branch.pollFrom id' kind cascade cursor (xs' ++ (ys' ++ zs')) scene) := by
  have hlen := hxs.length_eq
  have honward := pollFrom_onward id kind cascade cursor xs scene
  have hfront : (Branch.pollFrom id kind cascade cursor xs scene).Matches
      (fun p p' => p'.1 = p.1 ∧ List.Forall₂ Q p.2 p'.2 ∧ p.2.length = xs.length ∧
        cursor + p.1 ≤ xs.length ∧
        ((Branch.pollFrom id kind cascade cursor xs scene).status = kind.advancesOn →
          cursor + p.1 = xs.length))
      (Branch.pollFrom id' kind cascade cursor xs' scene) := by
    obtain ⟨hstatus, hscene, hcalls, hmoves, hpart⟩ := pollFrom_related hQ id id' hxs cursor scene
    exact ⟨hstatus, hscene, hcalls, hmoves, hpart, honward.length_part,
      (honward.moves_le (Nat.le_of_lt hcursor)).1,
      honward.moves_of_advances (Nat.le_of_lt hcursor)⟩
  have hfirst : (if m.state.started then inner else 0) = 0 := by rw [hidle]; rfl
  have hhere := fun scene : Scene δ => pollFrom_spliced_here hQ id id' hm hys'
    (hfirst.trans_lt (List.length_pos_iff.mpr hys)) hzs scene
  simp only [hfirst, Nat.zero_add] at hhere
  rw [pollFrom_append _ _ _ hcursor, pollFrom_append _ _ _ (hlen ▸ hcursor)]
  refine hfront.pollOn
    (S := fun s p p' => p'.1 = p.1 ∧ List.Forall₂ Q p.2 p'.2 ∧ p.2.length = xs.length ∧
      cursor + p.1 ≤ xs.length ∧ (s = kind.advancesOn → cursor + p.1 = xs.length))
    (T := fun s q q' => Spliced Q kind cascade s.isRunning q q')
    (U := fun s p p' => Spliced Q kind cascade s.isRunning (cursor + p.1, p.2)
      (cursor + p'.1, p'.2)) ?nil hhere ?stops ?ends ?cascades ?pauses
  case nil =>
    have hne : ys' ++ zs' ≠ [] := fun h =>
      hys (List.forall₂_nil_right_iff.mp ((List.append_eq_nil_iff.mp h).1 ▸ hys'))
    exact ⟨fun h => (List.cons_ne_nil _ _ h).elim, fun h => (hne h).elim⟩
  case stops =>
    rintro s ⟨moves, us⟩ ⟨moves', us'⟩ - ⟨rfl, hus, hlength, hmoves, -⟩
    exact spliced_before hys hm hidle hus hys' hzs (hlength ▸ hmoves) s.isRunning
  case ends => exact fun h => (List.cons_ne_nil _ _ h).elim
  case cascades =>
    rintro s ⟨moves, us⟩ ⟨moves', us'⟩ q q' ⟨rfl, hus, hlength, -, hend⟩ hq
    have hbehind := hq.behind hus
    rw [hlength, ← hend rfl, Nat.add_assoc, Nat.add_assoc] at hbehind
    exact hbehind
  case pauses =>
    rintro ⟨moves, us⟩ ⟨moves', us'⟩ - ⟨rfl, hus, hlength, hmoves, -⟩
    exact spliced_before hys hm hidle hus hys' hzs (hlength ▸ hmoves) true

/-- **Polling nested composites from the cursor on and polling flat ones** comes to the same. -/
theorem Branch.Spliced.pollFrom {cursor flat : Nat} {ts ts' : List (Branch (Node L))}
    (h : Spliced Q kind cascade true (cursor, ts) (flat, ts')) (scene : Scene δ) :
    (Branch.pollFrom id kind cascade cursor ts scene).Matches
      (fun p p' => Spliced Q kind cascade
        (Branch.pollFrom id kind cascade cursor ts scene).status.isRunning
        (cursor + p.1, p.2) (flat + p'.1, p'.2))
      (Branch.pollFrom id' kind cascade flat ts' scene) := by
  obtain @⟨m, xs, ys, zs, xs', ys', zs', cursor, inner, flat, hys, hm, hxs, hys', hzs, hstarted,
    hflat⟩ := h
  have hlen := hxs.length_eq
  have hlen' := hys'.length_eq
  have hflat := hflat rfl
  have hidle : cursor ≠ xs.length → m.state.started = false := fun hne =>
    Bool.eq_false_iff.mpr fun hs => hne (hstarted hs).2.1
  have hinner : (if m.state.started then inner else 0) < ys.length := by
    split
    · next hs => exact (hstarted hs).2.2
    · exact List.length_pos_iff.mpr hys
  rcases Nat.lt_trichotomy cursor xs.length with hlt | heq | hgt
  · -- a child in front of the inner composite is in turn
    have hm' := hidle (Nat.ne_of_lt hlt)
    rw [if_pos (Nat.le_of_lt hlt), hm'] at hflat
    obtain rfl : flat = cursor := hflat
    exact pollFrom_spliced_front hQ id id' hys hm hm' hxs hys' hzs hlt scene
  · -- the inner composite is in turn
    subst heq
    rw [if_pos (Nat.le_refl _)] at hflat
    have hnested := pollFrom_behind id kind cascade xs 0 (node m ys :: zs) scene
    have hflatter := pollFrom_behind id' kind cascade xs' (if m.state.started then inner else 0)
      (ys' ++ zs') scene
    rw [Nat.add_zero] at hnested
    rw [← hlen, ← hflat] at hflatter
    rw [hnested, hflatter]
    refine (pollFrom_spliced_here hQ id id' hm hys' hinner hzs scene).map fun p p' hp => ?_
    have hbehind := hp.behind hxs
    rw [Nat.zero_add, Nat.zero_add, hflat, Nat.add_assoc]
    exact hbehind
  · -- a child behind the inner composite is in turn
    have hm' := hidle (Nat.ne_of_gt hgt)
    obtain ⟨k, rfl⟩ : ∃ k, cursor = xs.length + 1 + k := ⟨cursor - xs.length - 1, by omega⟩
    obtain rfl : flat = xs.length + ys.length + k := by
      rw [hflat, if_neg (by omega)]
      omega
    have hnested := pollFrom_behind id kind cascade (xs ++ [node m ys]) k zs scene
    have hflatter := pollFrom_behind id' kind cascade (xs' ++ ys') k zs' scene
    rw [List.length_append, List.length_singleton, List.append_assoc,
      List.singleton_append] at hnested
    rw [List.length_append, List.append_assoc, ← hlen, ← hlen'] at hflatter
    rw [hnested, hflatter]
    refine (pollFrom_related hQ id id' hzs k scene).map fun p p' hp => ?_
    have hpast := spliced_behind hys hm hm' hxs hys' hp.2 (k + p.1)
      (Branch.pollFrom id kind cascade k zs scene).status.isRunning
    rw [← hp.1] at hpast
    simpa [Nat.add_assoc, hp.1, Outcome.behind] using hpast

end Spliced

/-! ## Levelled trees -/

/-- The first tree is a composite with a composite of its kind among its children, and the second
one has the children of the inner one in its place. -/
inductive Branch.Flattened (R : Node L → Node L → Prop) :
    Branch (Node L) → Branch (Node L) → Prop
  | mk {n m n' : Node L} {xs ys zs xs' ys' zs' : List (Branch (Node L))} {kind : CompositeKind}
    {cascade : Bool} {cursor inner flat : Nat} : ys ≠ [] →
    n.kind = .composite kind cascade cursor → m.kind = .composite kind cascade inner →
    n'.kind = .composite kind cascade flat → List.Forall₂ (Alike R) xs xs' →
    List.Forall₂ (Alike R) ys ys' → List.Forall₂ (Alike R) zs zs' →
    Flattened R (.node n (xs ++ .node m ys :: zs)) (.node n' (xs' ++ (ys' ++ zs')))

/-- Besides, an activation of the outer composite is under way where one of the flat one is, and the
cursors stand where they should. -/
inductive Branch.Levelled (R : Node L → Node L → Prop) :
    Branch (Node L) → Branch (Node L) → Prop
  | mk {n n' : Node L} {kind : CompositeKind} {cascade : Bool} {cursor flat : Nat}
    {ts ts' : List (Branch (Node L))} : n.kind = .composite kind cascade cursor →
    n'.kind = .composite kind cascade flat → n'.state.started = n.state.started →
    Spliced (Alike R) kind cascade n.state.started (cursor, ts) (flat, ts') →
    Levelled R (.node n ts) (.node n' ts')

section Levelled

variable {Q : Branch (Node L) → Branch (Node L) → Prop} {R : Node L → Node L → Prop}
  {kind : CompositeKind} {cascade : Bool} {t t' : Branch (Node L)}

/-- While no activation is under way nothing is asked of the cursors. -/
lemma Branch.spliced_idle {m : Node L} {xs ys zs xs' ys' zs' : List (Branch (Node L))}
    {inner : Nat} (hys : ys ≠ []) (hm : m.kind = .composite kind cascade inner)
    (hidle : m.state.started = false) (hxs : List.Forall₂ Q xs xs') (hys' : List.Forall₂ Q ys ys')
    (hzs : List.Forall₂ Q zs zs') (cursor flat : Nat) :
    Spliced Q kind cascade false (cursor, xs ++ node m ys :: zs) (flat, xs' ++ (ys' ++ zs')) := by
  refine .mk hys hm hxs hys' hzs (fun hs => ?_) fun hu => by cases hu
  rw [hidle] at hs
  cases hs

/-- A new activation begins at the first child of both. -/
lemma Branch.Spliced.start {p p' : Nat × List (Branch (Node L))}
    (h : Spliced Q kind cascade false p p') : Spliced Q kind cascade true (0, p.2) (0, p'.2) := by
  obtain ⟨hys, hm, hxs, hys', hzs, hstarted, -⟩ := h
  have hidle := Bool.eq_false_iff.mpr fun hs => Bool.false_ne_true (hstarted hs).1
  exact spliced_before hys hm hidle hxs hys' hzs (Nat.zero_le _) true

/-- Ending all activations keeps the children spliced, wherever it leaves the cursors. -/
lemma Branch.Spliced.map {p p' : Nat × List (Branch (Node L))} {underway : Bool}
    (h : Spliced Q kind cascade underway p p') {f : Node L → Node L}
    (hidle : ∀ m, (f m).state.started = false)
    (hkind : ∀ {m cursor}, m.kind = .composite kind cascade cursor →
      ∃ cursor, (f m).kind = .composite kind cascade cursor)
    (hQ : ∀ {t t'}, Q t t' → Q (t.map f) (t'.map f)) (cursor flat : Nat) :
    Spliced Q kind cascade false (cursor, p.2.map fun t => t.map f)
      (flat, p'.2.map fun t => t.map f) := by
  obtain @⟨m, xs, ys, zs, xs', ys', zs', _, inner, _, hys, hm, hxs, hys', hzs, -, -⟩ := h
  obtain ⟨inner', hm'⟩ := hkind hm
  have hchildren : ∀ {us us' : List (Branch (Node L))}, List.Forall₂ Q us us' →
      List.Forall₂ Q (us.map fun t => t.map f) (us'.map fun t => t.map f) := fun h => by
    rw [List.forall₂_map_left_iff, List.forall₂_map_right_iff]
    exact h.imp fun _ _ h => hQ h
  simp only [List.map_append, List.map_cons, map_node]
  exact spliced_idle (mt List.map_eq_nil_iff.mp hys) hm' (hidle m) (hchildren hxs) (hchildren hys')
    (hchildren hzs) cursor flat

lemma Branch.labelsAll_append (xs ys : List (Branch (Node L))) :
    labelsAll (xs ++ ys) = labelsAll xs ++ labelsAll ys := by
  induction xs with
  | nil => rfl
  | cons t ts ih => rw [List.cons_append, labelsAll, labelsAll, ih, List.append_assoc]

lemma Branch.leafFieldsAll_append (xs ys : List (Branch (Node L))) :
    leafFieldsAll (xs ++ ys) = leafFieldsAll xs ++ leafFieldsAll ys := by
  rw [leafFieldsAll, labelsAll_append, List.filterMap_append]
  rfl

lemma Node.leafField?_composite {n : Node L} {cursor : Nat}
    (h : n.kind = .composite kind cascade cursor) : n.leafField? = none := by
  rw [Node.leafField?, h]
  rfl

lemma Branch.Spliced.leafFieldsAll {p p' : Nat × List (Branch (Node L))} {underway : Bool}
    (h : Spliced (Alike Node.Renamed) kind cascade underway p p') :
    Branch.leafFieldsAll p'.2 = Branch.leafFieldsAll p.2 := by
  obtain ⟨-, hm, hxs, hys, hzs, -, -⟩ := h
  have hchildren : ∀ {us us' : List (Branch (Node L))},
      List.Forall₂ (Alike Node.Renamed) us us' →
      Branch.leafFieldsAll us' = Branch.leafFieldsAll us := fun h =>
    leafFieldsAll_eq (h.imp fun _ _ h => h.leafFields (fun h => h.toAlias) fun h => h.elim)
  simp only [leafFieldsAll_append, leafFieldsAll_cons, leafFields_node,
    Node.leafField?_composite hm, hchildren hxs, hchildren hys, hchildren hzs, Option.toList_none,
    List.nil_append]

variable [Behavior L δ]

/-- **Polls of levelled trees** come to the same, and leave levelled trees behind. -/
lemma Branch.Levelled.poll (h : t.Levelled Node.Renamed t') (scene : Scene δ) :
    (t.poll scene).Matches (Levelled Node.Renamed) (t'.poll scene) := by
  obtain @⟨n, n', kind, cascade, cursor, flat, ts, ts', hk, hk', hstarted, hsplice⟩ := h
  obtain ⟨id, k, state⟩ := n
  obtain ⟨id', k', state'⟩ := n'
  simp only at hk hk' hstarted hsplice
  subst hk hk'
  -- the children are polled from those in turn on
  have hunderway : Spliced (Alike Node.Renamed) kind cascade true
      (if state.started then cursor else 0, ts) (if state'.started then flat else 0, ts') := by
    rw [hstarted]
    cases hs : state.started with
    | true =>
        rw [hs] at hsplice
        exact hsplice
    | false =>
        rw [hs] at hsplice
        exact hsplice.start
  have hnested := poll_matches_composite id kind cascade cursor state ts scene
  have hflat := poll_matches_composite id' kind cascade flat state' ts' scene
  have hchildren := hunderway.pollFrom interchange_renamed id id' scene
  refine ⟨?_, ?_, ?_, ?_⟩
  · rw [hflat.status, hchildren.status, hnested.status]
  · rw [hflat.scene, hchildren.scene, hnested.scene]
  · rw [hflat.calls, hchildren.calls, hnested.calls]
  · obtain ⟨s, hs, hnow⟩ := hnested.part
    obtain ⟨s', hs', hnow'⟩ := hflat.part
    rw [hnow, hnow']
    have hsame := hflat.status.trans (hchildren.status.trans hnested.status.symm)
    refine .mk rfl rfl (hs'.trans ((congrArg Status.isRunning hsame).trans hs.symm)) ?_
    rw [hs, hnested.status]
    exact hchildren.part

lemma Branch.Levelled.map (h : t.Levelled R t') {f : Node L → Node L}
    (hidle : ∀ m, (f m).state.started = false)
    (hkind : ∀ {m : Node L} {kind cascade cursor}, m.kind = .composite kind cascade cursor →
      ∃ cursor, (f m).kind = .composite kind cascade cursor)
    (hR : ∀ {n n'}, R n n' → R (f n) (f n')) : (t.map f).Levelled R (t'.map f) := by
  obtain @⟨n, n', kind, cascade, cursor, flat, ts, ts', hk, hk', hstarted, hsplice⟩ := h
  obtain ⟨cursor', hk⟩ := hkind hk
  obtain ⟨flat', hk'⟩ := hkind hk'
  rw [map_node, map_node]
  refine .mk hk hk' ((hidle n').trans (hidle n).symm) ?_
  rw [hidle n]
  exact hsplice.map hidle hkind (fun h => h.map hR fun h => h) cursor' flat'

/-- **Nested composites and flat ones** may stand for each other. -/
theorem interchange_levelled : Interchange (δ := δ) (Levelled (L := L) Node.Renamed) where
  poll h scene := h.poll scene
  clear h := h.map (fun _ => rfl) (fun h => ⟨_, h⟩) Node.Renamed.clear
  rearm h := h.map (fun _ => rfl) (fun h => ⟨0, congrArg NodeKind.rewind h⟩) Node.Renamed.rearm
  leaves h := by
    obtain ⟨hk, hk', -, hsplice⟩ := h
    rw [leafFields_node, leafFields_node, Node.leafField?_composite hk,
      Node.leafField?_composite hk', hsplice.leafFieldsAll]

end Levelled

/-! ## Runs of flattened trees -/

section Untouched

variable {R R' : Node L → Node L → Prop} {F : Node L → Prop}

lemma Branch.forall₂_alike_imp {ts ts' : List (Branch (Node L))}
    (hR : ∀ {n n'}, F n → F n' → R n n' → R' n n') (h : List.Forall₂ (Alike R) ts ts')
    (ht : ∀ n ∈ labelsAll ts, F n) (ht' : ∀ n ∈ labelsAll ts', F n) :
    List.Forall₂ (Alike R') ts ts' := by
  induction h with
  | nil => exact .nil
  | cons h _ ih =>
      obtain ⟨hfirst, hrest⟩ := List.forall_mem_append.mp ht
      obtain ⟨hfirst', hrest'⟩ := List.forall_mem_append.mp ht'
      exact .cons (h.imp hR (fun _ _ h => h) hfirst hfirst') (ih hrest hrest')

/-- Trees that have not been touched are levelled if the one is the other flattened. -/
lemma Branch.Flattened.levelled {t t' : Branch (Node L)} (h : t.Flattened Node.Alias t')
    (ht : ∀ n ∈ t.labels, n.state = .fresh) (ht' : ∀ n ∈ t'.labels, n.state = .fresh) :
    t.Levelled Node.Renamed t' := by
  obtain ⟨hsome, hk, hm, hk', hxs, hys, hzs⟩ := h
  simp only [labels, labelsAll, labelsAll_append, List.forall_mem_cons,
    List.forall_mem_append] at ht ht'
  obtain ⟨hn, hxs₀, ⟨hm₀, hys₀⟩, hzs₀⟩ := ht
  obtain ⟨hn', hxs₀', hys₀', hzs₀'⟩ := ht'
  refine .mk hk hk' (by rw [hn, hn']) ?_
  rw [hn]
  exact spliced_idle hsome hm (by rw [hm₀]; rfl)
    (forall₂_alike_imp Node.Alias.renamed hxs hxs₀ hxs₀')
    (forall₂_alike_imp Node.Alias.renamed hys hys₀ hys₀')
    (forall₂_alike_imp Node.Alias.renamed hzs hzs₀ hzs₀') _ _

end Untouched

namespace Tree

variable [Behavior L δ] {t t' : Tree L} {b b' : Branch (Node L)}

/-- **Nested composites of one kind flatten.**  The two trees are the same, except that in any
places the second one has, among the children of a composite, those of an inner composite where the
first one has the inner composite, which has children, is of the same kind and has the same
`cascade`; the engine may have numbered other nodes than leaves differently.  Then every run of the
second one is like the run of the first one: call by call, the same results, the same contexts of
the driver and the same hooks in the same order, and after any calls the same blackboard and the
same leaves. -/
theorem Fresh.flattens (h : t.Fresh) (h' : t'.Fresh) (hb : t.branch? = some b)
    (hb' : t'.branch? = some b') (hflat : b.Exchanged Node.Alias (Flattened Node.Alias) b')
    (calls : List (Call δ)) : t.RunsAlike t' calls := by
  have hstands : t.StandsFor (Exchanged Node.Renamed (Levelled Node.Renamed)) t' :=
    h.standsFor h' hb hb' fun hfresh hfresh' =>
      hflat.imp Node.Alias.renamed (fun ht ht' h => h.levelled ht ht') hfresh hfresh'
  exact hstands.runsAlike interchange_levelled.exchanged calls

/-- A sequence that pauses between its children, with a sequence that has two of them between a
leaf and an inverted one, below a reset: the inner sequence takes no update of its own, neither when
it begins nor when it ends. -/
theorem flattens_sequence :
    let b : Branch (Node Constant) := .node (.fresh ⟨0⟩ .root)
      [.node (.fresh ⟨1⟩ (.decorator .reset false))
        [.node (.fresh ⟨2⟩ (.composite .sequence false 0))
          [.node (.fresh ⟨10⟩ (.leaf .succeed)) [],
          .node (.fresh ⟨3⟩ (.composite .sequence false 0))
            [.node (.fresh ⟨11⟩ (.leaf .succeed)) [], .node (.fresh ⟨12⟩ (.leaf .succeed)) []],
          .node (.fresh ⟨4⟩ (.decorator .invert false))
            [.node (.fresh ⟨13⟩ (.leaf .succeed)) []]]]]
    let b' : Branch (Node Constant) := .node (.fresh ⟨0⟩ .root)
      [.node (.fresh ⟨1⟩ (.decorator .reset false))
        [.node (.fresh ⟨2⟩ (.composite .sequence false 0))
          [.node (.fresh ⟨10⟩ (.leaf .succeed)) [], .node (.fresh ⟨11⟩ (.leaf .succeed)) [],
          .node (.fresh ⟨12⟩ (.leaf .succeed)) [],
          .node (.fresh ⟨3⟩ (.decorator .invert false))
            [.node (.fresh ⟨13⟩ (.leaf .succeed)) []]]]]
    let calls : List (Call Unit) :=
      [.start, .update (), .update (), .rearm, .update (), .update (), .update (), .update ()]
    Tree.build .standard (some (.decorate .reset (.composite none .sequence (some false)
        [.leaf (some ⟨10⟩) Constant.succeed,
        .composite none .sequence (some false)
          [.leaf (some ⟨11⟩) .succeed, .leaf (some ⟨12⟩) .succeed],
        .decorate .invert (.leaf (some ⟨13⟩) .succeed)]))) = .ok (ofBranch b) ∧
      Tree.build .standard (some (.decorate .reset (.composite none .sequence (some false)
        [.leaf (some ⟨10⟩) Constant.succeed, .leaf (some ⟨11⟩) .succeed,
        .leaf (some ⟨12⟩) .succeed,
        .decorate .invert (.leaf (some ⟨13⟩) .succeed)]))) = .ok (ofBranch b') ∧
      b.Exchanged Node.Alias (Flattened Node.Alias) b' ∧
      ((ofBranch b).replies calls).map Reply.audible = [.done,
        .updated .running () [.hook ⟨10⟩ (.start true), .hook ⟨10⟩ (.update .success),
          .hook ⟨10⟩ .stop],
        .updated .running () [.hook ⟨11⟩ (.start true), .hook ⟨11⟩ (.update .success),
          .hook ⟨11⟩ .stop],
        .done,
        .updated .running () [.hook ⟨10⟩ (.start false), .hook ⟨10⟩ (.update .success),
          .hook ⟨10⟩ .stop],
        .updated .running () [.hook ⟨11⟩ (.start false), .hook ⟨11⟩ (.update .success),
          .hook ⟨11⟩ .stop],
        .updated .running () [.hook ⟨12⟩ (.start true), .hook ⟨12⟩ (.update .success),
          .hook ⟨12⟩ .stop],
        .updated .failure () [.hook ⟨13⟩ (.start true), .hook ⟨13⟩ (.update .success),
          .hook ⟨13⟩ .stop]] ∧
      (ofBranch b).RunsAlike (ofBranch b') calls := by
  intro b b' calls
  have hbuild : Tree.build .standard (some (.decorate .reset
      (.composite none .sequence (some false)
        [.leaf (some ⟨10⟩) Constant.succeed,
        .composite none .sequence (some false)
          [.leaf (some ⟨11⟩) .succeed, .leaf (some ⟨12⟩) .succeed],
        .decorate .invert (.leaf (some ⟨13⟩) .succeed)]))) = .ok (ofBranch b) := rfl
  have hbuild' : Tree.build .standard (some (.decorate .reset
      (.composite none .sequence (some false)
        [.leaf (some ⟨10⟩) Constant.succeed, .leaf (some ⟨11⟩) .succeed,
        .leaf (some ⟨12⟩) .succeed,
        .decorate .invert (.leaf (some ⟨13⟩) .succeed)]))) = .ok (ofBranch b') := rfl
  have hleaf : ∀ (id : NodeId) (l : Constant),
      Alike Node.Alias (.node (.fresh id (.leaf l)) []) (.node (.fresh id (.leaf l)) []) :=
    fun _ _ => .node ⟨rfl, fun _ => rfl⟩ .nil
  have hflat : b.Exchanged Node.Alias (Flattened Node.Alias) b' := by
    refine .node (Node.alias_fresh _ _ rfl)
      (.cons (.node (Node.alias_fresh _ _ rfl) (.cons (.here ?_) .nil)) .nil)
    exact .mk (List.cons_ne_nil _ _) rfl rfl rfl (.cons (hleaf _ _) .nil)
      (.cons (hleaf _ _) (.cons (hleaf _ _) .nil))
      (.cons (.node (Node.alias_fresh _ _ rfl) (.cons (hleaf _ _) .nil)) .nil)
  exact ⟨hbuild, hbuild', hflat, by decide +kernel,
    (Fresh.built .standard _ hbuild).flattens (.built .standard _ hbuild') (branch?_ofBranch b)
      (branch?_ofBranch b') hflat calls⟩

end Tree

end BehaviorTree
