import SqlTide.Direct.BuildWorkflow

/-!
# The steps of an assembled direct build

Sequences count from one, phases do not go back, every step id starts as its phase names it, and
once a landing view is activated no statement drops a relation.
-/

namespace SqlTide.Direct

open Destruction (WorkflowPhase StatementIntent)
open Foundations Replay List

/-- How the ids of the steps before the activation start. -/
def earlyStarts : List String :=
  ["prepare_target_database", "prepare_source_", "pause_source_", "clear_staged_source_",
    "stage_source_", "swap_source_", "retire_source_", "bootstrap_source_",
    "wait_for_source_bootstrap", "drop_", "realize_", "wait_for_live_stabilization",
    "capture_replay_", "replay_"]

/-- How the ids of the steps of the preparation start. -/
def preparationStarts : List String := earlyStarts.take 9

/-- How the step ids of a direct build start. -/
def stepStarts : List String := earlyStarts ++ ["activate_source_", "audit_"]

def StartsAs (starts : List String) (stepId : String) : Prop :=
  ∃ start ∈ starts, startsWith stepId start = true

variable {starts : List String} {stepId : String} {start : ℕ} {phase : WorkflowPhase}

theorem StartsAs.mono {starts' : List String} (h : StartsAs starts stepId)
    (hsubset : starts ⊆ starts') : StartsAs starts' stepId := by
  obtain ⟨start, hstart, hid⟩ := h
  exact ⟨start, hsubset hstart, hid⟩

theorem startsAs_append {start : String} (h : start ∈ starts)
    (rest : String) : StartsAs starts (start ++ rest) := ⟨start, h, startsWith_append start rest⟩

/-- Two texts of which neither starts like the other. -/
def differ (a b : String) : Bool := !startsWith a b && !startsWith b a

/-- A text that no step starts like is no start of a step id. -/
theorem StartsAs.ne_append {text : String}
    (h : StartsAs starts stepId) (htext : ∀ start ∈ starts, differ start text = true)
    (rest : String) : stepId ≠ text ++ rest := by
  obtain ⟨start, hstart, hid⟩ := h
  obtain ⟨other, rfl⟩ := startsWith_iff.mp hid
  have hdiffer := htext start hstart
  simp only [differ, Bool.and_eq_true, Bool.not_eq_true'] at hdiffer
  exact append_ne_append hdiffer.1 hdiffer.2 other rest

theorem toList_stepSegment (value : String) :
    (stepSegment value).toList = value.toList.map fun c => if c.isAlphanum then c else '_' := by
  rw [stepSegment, String.toList_ofList]

theorem stepSegment_eq_self {value : String} (h : ∀ c ∈ value.toList, c.isAlphanum ∨ c = '_') :
    stepSegment value = value := by
  rw [← String.toList_inj, toList_stepSegment]
  conv_rhs => rw [← map_id value.toList]
  refine map_congr_left fun c hc => ?_
  rcases h c hc with halphanum | rfl
  · rw [if_pos halphanum]
    rfl
  · rfl

variable {a : String} {high : ℕ} {α : Type} {rendered : List (String × StatementSql)}

theorem identifier_of_all (h : a.toList.all (fun c => c.isAlphanum || c == '_') = true) :
    ∀ c ∈ a.toList, c.isAlphanum ∨ c = '_' := by
  intro c hc
  simpa using all_eq_true.mp h c hc

theorem identifier_append {b : String} (ha : ∀ c ∈ a.toList, c.isAlphanum ∨ c = '_')
    (hb : ∀ c ∈ b.toList, c.isAlphanum ∨ c = '_') :
    ∀ c ∈ (a ++ b).toList, c.isAlphanum ∨ c = '_' := by
  intro c hc
  rw [String.toList_append, mem_append] at hc
  exact hc.elim (ha c) (hb c)

namespace ManagedSource

variable (source : ManagedSource)

@[simp] theorem stepSegment_landingMvName :
    stepSegment (landingMvName source.name) = landingMvName source.name :=
  stepSegment_eq_self (identifier_append (identifier_of_all (by decide)) source.identifier)

@[simp] theorem stepSegment_kafkaTableName :
    stepSegment (kafkaTableName source.name) = kafkaTableName source.name :=
  stepSegment_eq_self (identifier_append (identifier_of_all (by decide)) source.identifier)

theorem stagedRelationName_ne_landingMvName (name : String) :
    source.stagedRelationName ≠ landingMvName name :=
  append_ne_append (by decide) (by decide) _ _

end ManagedSource

section

variable {request : DirectBuildRequest}

theorem mem_pausedLandingViews {view : String} :
    view ∈ pausedLandingViews request ↔
      ∃ source ∈ request.sources, view = landingMvName source.name := by
  simp only [pausedLandingViews, preservedLandingViews, landingViews, mem_append,
    mem_filter, List.mem_map]
  constructor
  · rintro (⟨⟨source, hsource, rfl⟩, -⟩ | ⟨⟨source, hsource, rfl⟩, -⟩)
    · exact ⟨source, hsource, rfl⟩
    · exact ⟨source, hsource, rfl⟩
  · rintro ⟨source, hsource, rfl⟩
    by_cases hcatalog : landingMvName source.name ∈ request.catalog
    · exact .inl ⟨⟨source, hsource, rfl⟩, by simpa using hcatalog⟩
    · exact .inr ⟨⟨source, hsource, rfl⟩, by simpa using hcatalog⟩

theorem stepSegment_of_mem {view : String} (h : view ∈ pausedLandingViews request) :
    stepSegment view = view := by
  obtain ⟨source, -, rfl⟩ := mem_pausedLandingViews.mp h
  exact source.stepSegment_landingMvName

theorem nodup_pausedLandingViews : (pausedLandingViews request).Nodup := by
  have hnames : (request.sources.map fun source => landingMvName source.name).Nodup := by
    have hmap := request.sources_nodup.map (append_right_injective "mv__")
    rwa [map_map] at hmap
  refine (hnames.filter _).append (hnames.filter _) ?_
  intro view hpreserved habsent
  simp only [landingViews, mem_filter, decide_eq_true_eq] at hpreserved habsent
  exact habsent.2 hpreserved.2

end

/-- A part of a workflow: its sequences count from `start`, and its phases lie in a range and do
not go back. -/
structure Part (start low high : ℕ) (statements : List WarehouseStatement) : Prop where
  sequences : statements.map (·.sequence) = range' start statements.length
  bounds : ∀ s ∈ statements, low ≤ phaseIndex s.phase ∧ phaseIndex s.phase ≤ high
  phases : statements.Pairwise fun a b => phaseIndex a.phase ≤ phaseIndex b.phase

theorem Part.append {start' low low' high' : ℕ} {first second : List WarehouseStatement}
    (h : Part start low high first) (h' : Part start' low' high' second)
    (hstart : start' = start + first.length) (hle : high ≤ low') (hlow : low ≤ low')
    (hhigh : high ≤ high') : Part start low high' (first ++ second) := by
  refine ⟨?_, ?_, ?_⟩
  · rw [map_append, h.sequences, h'.sequences, hstart, length_append, range'_append_1]
  · intro s hs
    rcases mem_append.mp hs with hs | hs
    · obtain ⟨hlower, hupper⟩ := h.bounds s hs
      exact ⟨hlower, hupper.trans hhigh⟩
    · obtain ⟨hlower, hupper⟩ := h'.bounds s hs
      exact ⟨hlow.trans hlower, hupper⟩
  · refine pairwise_append.mpr ⟨h.phases, h'.phases, ?_⟩
    intro a ha b hb
    have hupper := (h.bounds a ha).2
    have hlower := (h'.bounds b hb).1
    omega

theorem part_mapIdx (n : ℕ) {make : ℕ → α → WarehouseStatement} {entries : List α}
    (hsequence : ∀ i a, (make i a).sequence = start + i)
    (hphase : ∀ i a, phaseIndex (make i a).phase = n) : Part start n n (entries.mapIdx make) := by
  have hphases : ∀ s ∈ entries.mapIdx make, phaseIndex s.phase = n := by
    intro s hs
    obtain ⟨i, hi, rfl⟩ := mem_mapIdx.mp hs
    exact hphase i _
  refine ⟨?_, ?_, ?_⟩
  · refine ext_getElem (by simp) ?_
    intro i hi hi'
    simp [hsequence]
  · intro s hs
    rw [hphases s hs]
    exact ⟨le_rfl, le_rfl⟩
  · apply pairwise_of_forall_mem_list
    intro a ha b hb
    rw [hphases a ha, hphases b hb]

theorem part_mutationStatements (n : ℕ)
    (hphase : phaseIndex phase = n) : Part start n n (mutationStatements rendered phase start) :=
  part_mapIdx n (fun _ _ => rfl) fun _ _ => hphase

theorem part_waitStatements (n : ℕ)
    (hphase : phaseIndex phase = n) : Part start n n (waitStatements stepId phase start) := by
  refine ⟨rfl, ?_, pairwise_singleton _ _⟩
  intro s hs
  obtain rfl := mem_singleton.mp hs
  exact ⟨hphase.ge, hphase.le⟩

theorem part_nil (start low high : ℕ) : Part start low high [] :=
  ⟨rfl, by simp, List.Pairwise.nil⟩

theorem part_optional (n : ℕ) {condition : Prop} [Decidable condition]
    (hphase : phaseIndex phase = n) :
    Part start n n (if condition then waitStatements stepId phase start else []) := by
  split_ifs
  · exact part_waitStatements n hphase
  · exact part_nil _ _ _

theorem Part.valid {statements : List WarehouseStatement}
    (h : Part 1 1 high statements) : validWorkflow statements = true := by
  simp only [validWorkflow, Bool.and_eq_true, decide_eq_true_eq]
  exact ⟨h.sequences, pairwise_map.mpr h.phases⟩

theorem map_mapIdx_of_forall {β γ : Type} {make : ℕ → α → β} {read : β → γ} {entry : α → γ}
    (h : ∀ i a, read (make i a) = entry a) (xs : List α) :
    (xs.mapIdx make).map read = xs.map entry := by
  refine ext_getElem (by simp) ?_
  intro i hi hi'
  simp [h]

theorem map_stepId_mutationStatements (rendered : List (String × StatementSql))
    (phase : WorkflowPhase) (start : ℕ) :
    (mutationStatements rendered phase start).map (·.stepId) = rendered.map (·.1) := by
  apply map_mapIdx_of_forall
  intro i entry
  rfl

theorem mem_mutationStatements
    {s : WarehouseStatement} (h : s ∈ mutationStatements rendered phase start) :
    ∃ entry ∈ rendered, s.stepId = entry.1 ∧ s.sql = entry.2 ∧ s.continueOnError = false := by
  obtain ⟨i, hi, rfl⟩ := mem_mapIdx.mp h
  exact ⟨_, getElem_mem hi, rfl, rfl, rfl⟩

section

variable (request : DirectBuildRequest)

theorem part_preparationStatements (start : ℕ) :
    Part start 1 1 (preparationStatements request start) := by
  unfold preparationStatements
  refine Part.append (Part.append (Part.append (Part.append (part_mutationStatements 1 rfl)
    (part_mutationStatements 1 rfl) ?_ ?_ ?_ ?_) (part_mutationStatements 1 rfl) ?_ ?_ ?_ ?_)
    (part_optional 1 rfl) ?_ ?_ ?_ ?_) (part_mutationStatements 1 rfl) ?_ ?_ ?_ ?_
  all_goals try simp only [length_append]
  all_goals omega

theorem part_assembleStatements : Part 1 1 7 (assembleStatements request) := by
  unfold assembleStatements
  split_ifs
  · exact part_nil _ _ _
  · refine Part.append (Part.append (Part.append (Part.append (Part.append (Part.append
      (part_preparationStatements request 1) (part_mutationStatements 2 rfl) ?_ ?_ ?_ ?_)
      (part_mutationStatements 3 rfl) ?_ ?_ ?_ ?_) (part_waitStatements 4 rfl) ?_ ?_ ?_ ?_)
      (part_mapIdx 6 (fun _ _ => rfl) fun _ _ => rfl) ?_ ?_ ?_ ?_)
      (part_mutationStatements 6 rfl) ?_ ?_ ?_ ?_)
      (part_mapIdx 7 (fun _ _ => rfl) fun _ _ => rfl) ?_ ?_ ?_ ?_
    all_goals try simp only [length_append]
    all_goals omega

variable {s : WarehouseStatement}

theorem startsAs_preparationStatements
    (h : s ∈ preparationStatements request start) : StartsAs preparationStarts s.stepId := by
  simp only [preparationStatements, mem_append] at h
  rcases h with (((hpassive | hrecreated) | hbootstrap) | hwait) | hpause
  · obtain ⟨entry, hentry, hid, -⟩ := mem_mutationStatements hpassive
    rw [hid]
    rcases mem_cons.mp hentry with rfl | hentry
    · exact ⟨_, by decide, startsWith_append "prepare_target_database" ""⟩
    · obtain ⟨relation, -, rfl⟩ := List.mem_map.mp hentry
      exact startsAs_append (by decide) _
  · obtain ⟨entry, hentry, hid, -⟩ := mem_mutationStatements hrecreated
    rw [hid]
    obtain ⟨source, -, hentry⟩ := mem_flatMap.mp hentry
    rcases mem_append.mp hentry with hentry | hentry
    · split_ifs at hentry
      · obtain rfl := mem_singleton.mp hentry
        exact startsAs_append (by decide) _
      · cases hentry
    · simp only [mem_cons, not_mem_nil, or_false] at hentry
      rcases hentry with rfl | rfl | rfl | rfl <;> exact startsAs_append (by decide) _
  · obtain ⟨entry, hentry, hid, -⟩ := mem_mutationStatements hbootstrap
    rw [hid]
    obtain ⟨view, -, rfl⟩ := List.mem_map.mp hentry
    exact startsAs_append (by decide) _
  · split_ifs at hwait
    · obtain rfl := mem_singleton.mp hwait
      exact ⟨_, by decide, startsWith_append "wait_for_source_bootstrap" ""⟩
    · cases hwait
  · obtain ⟨entry, hentry, hid, -⟩ := mem_mutationStatements hpause
    rw [hid]
    obtain ⟨view, -, rfl⟩ := List.mem_map.mp hentry
    exact startsAs_append (by decide) _

theorem audit_of_mem (h : s ∈ auditStatements request start) :
    startsWith s.stepId "audit_" = true ∧ ∃ name, s.sql = .audit name := by
  obtain ⟨i, hi, rfl⟩ := mem_mapIdx.mp h
  obtain ⟨pair, hpair, hentry⟩ := mem_flatten.mp (getElem_mem hi)
  obtain ⟨j, hj, rfl⟩ := mem_mapIdx.mp hpair
  refine ⟨?_, _, rfl⟩
  simp only [mem_cons, not_mem_nil, or_false] at hentry
  rcases hentry with hentry | hentry
  · rw [hentry, String.append_assoc, String.append_assoc, String.append_assoc]
    exact startsWith_append _ _
  · rw [hentry, String.append_assoc, String.append_assoc, String.append_assoc]
    exact startsWith_append _ _

/-- The activations of the landing views, with what comes before and behind them. -/
structure Assembled (early activations audits : List WarehouseStatement) : Prop where
  statements : assembleStatements request = early ++ activations ++ audits
  early : ∀ s ∈ early, StartsAs earlyStarts s.stepId
  activations : ∃ start, activations = sourceActivationStatements request start
  audits : ∀ s ∈ audits, startsWith s.stepId "audit_" = true ∧ ∃ name, s.sql = .audit name

/-- There is nothing to execute, or the workflow is assembled from its phases. -/
theorem assembled :
    assembleStatements request = [] ∨
      ∃ early activations audits, Assembled request early activations audits := by
  by_cases hempty : request.executes = false ∧ request.audits = []
  · exact .inl (if_pos hempty)
  · refine .inr ⟨_, _, _, if_neg hempty, ?_, ⟨_, rfl⟩, fun _ => audit_of_mem request⟩
    intro s hs
    simp only [mem_append] at hs
    rcases hs with (((hprepare | hteardown) | hrealize) | hstabilize) | hreplay
    · exact (startsAs_preparationStatements request hprepare).mono (take_subset 9 _)
    · obtain ⟨entry, hentry, hid, -⟩ := mem_mutationStatements hteardown
      rw [hid]
      obtain ⟨relation, -, rfl⟩ := List.mem_map.mp hentry
      exact startsAs_append (by decide) _
    · obtain ⟨entry, hentry, hid, -⟩ := mem_mutationStatements hrealize
      rw [hid]
      obtain ⟨relation, -, rfl⟩ := List.mem_map.mp hentry
      exact startsAs_append (by decide) _
    · obtain rfl := mem_singleton.mp hstabilize
      exact ⟨_, by decide, startsWith_append "wait_for_live_stabilization" ""⟩
    · obtain ⟨i, hi, rfl⟩ := mem_mapIdx.mp hreplay
      obtain ⟨runtime, -, hentry⟩ := mem_flatMap.mp (getElem_mem hi)
      simp only [mem_cons, not_mem_nil, or_false] at hentry
      rcases hentry with hentry | hentry
      · rw [hentry]
        exact startsAs_append (by decide) _
      · rw [hentry]
        exact startsAs_append (by decide) _

variable {request}

theorem startsAs_of_mem (h : s ∈ assembleStatements request) : StartsAs stepStarts s.stepId := by
  rcases assembled request with hempty | ⟨early, activations, audits, hassembled⟩
  · rw [hempty] at h
    cases h
  · rw [hassembled.statements, mem_append, mem_append] at h
    obtain ⟨start, rfl⟩ := hassembled.activations
    rcases h with (hearly | hactivation) | haudit
    · exact (hassembled.early s hearly).mono (subset_append_left _ _)
    · obtain ⟨entry, hentry, hid, -⟩ := mem_mutationStatements hactivation
      obtain ⟨view, -, rfl⟩ := List.mem_map.mp hentry
      rw [hid]
      exact startsAs_append (by decide) _
    · exact ⟨_, by decide, (hassembled.audits s haudit).1⟩

theorem startsWith_eq_false {text : String} (h : StartsAs starts stepId)
    (htext : ∀ start ∈ starts, differ start text = true) : startsWith stepId text = false := by
  rw [← Bool.not_eq_true, startsWith_iff]
  rintro ⟨rest, hrest⟩
  exact h.ne_append htext rest hrest

variable {view : String}

theorem sql_of_activation (h : s ∈ assembleStatements request)
    (hview : view ∈ pausedLandingViews request)
    (hid : s.stepId = "activate_source_" ++ stepSegment view) :
    s.sql = .createIfNotExists view ∧ s.continueOnError = false := by
  rcases assembled request with hempty | ⟨early, activations, audits, hassembled⟩
  · rw [hempty] at h
    cases h
  · rw [hassembled.statements, mem_append, mem_append] at h
    obtain ⟨start, rfl⟩ := hassembled.activations
    rcases h with (hearly | hactivation) | haudit
    · exact absurd hid ((hassembled.early s hearly).ne_append (by decide) _)
    · obtain ⟨entry, hentry, hentryId, hsql, hcontinue⟩ := mem_mutationStatements hactivation
      obtain ⟨other, hother, rfl⟩ := List.mem_map.mp hentry
      rw [hid] at hentryId
      have hsegment := append_right_injective _ hentryId
      rw [stepSegment_of_mem hview, stepSegment_of_mem hother] at hsegment
      rw [hsql, hsegment]
      exact ⟨rfl, hcontinue⟩
    · have haudits : StartsAs ["audit_"] s.stepId := ⟨_, by simp, (hassembled.audits s haudit).1⟩
      exact absurd hid (haudits.ne_append (by decide) _)

/-- Behind an activation no statement drops a relation. -/
theorem pairwise_keeps :
    (assembleStatements request).Pairwise fun a b =>
      startsWith a.stepId "activate_source_" = true →
        ∀ relation, b.sql ≠ .dropIfExists relation := by
  rcases assembled request with hempty | ⟨early, activations, audits, hassembled⟩
  · rw [hempty]
    exact List.Pairwise.nil
  · have hlate : ∀ b ∈ activations ++ audits, ∀ relation, b.sql ≠ .dropIfExists relation := by
      obtain ⟨start, rfl⟩ := hassembled.activations
      intro b hb relation
      rcases mem_append.mp hb with hb | hb
      · obtain ⟨entry, hentry, -, hsql, -⟩ := mem_mutationStatements hb
        obtain ⟨view, -, rfl⟩ := List.mem_map.mp hentry
        rw [hsql]
        exact StatementSql.noConfusion
      · obtain ⟨name, hname⟩ := (hassembled.audits b hb).2
        rw [hname]
        exact StatementSql.noConfusion
    rw [hassembled.statements, append_assoc]
    refine pairwise_append.mpr ⟨?_, ?_, ?_⟩
    · apply pairwise_of_forall_mem_list
      intro a ha b _ hactivation
      rw [startsWith_eq_false (hassembled.early a ha) (by decide)] at hactivation
      cases hactivation
    · apply pairwise_of_forall_mem_list
      intro a _ b hb _
      exact hlate b hb
    · intro a _ b hb _
      exact hlate b hb

theorem exists_activation (hnonempty : assembleStatements request ≠ [])
    (hview : view ∈ pausedLandingViews request) :
    ∃ s ∈ assembleStatements request, s.stepId = "activate_source_" ++ stepSegment view := by
  rcases assembled request with hempty | ⟨early, activations, audits, hassembled⟩
  · exact absurd hempty hnonempty
  · obtain ⟨start, rfl⟩ := hassembled.activations
    have hids : (sourceActivationStatements request start).map (·.stepId) =
        (pausedLandingViews request).map fun view => "activate_source_" ++ stepSegment view := by
      rw [sourceActivationStatements, map_stepId_mutationStatements, map_map]
      rfl
    have hmem : "activate_source_" ++ stepSegment view ∈
        (sourceActivationStatements request start).map (·.stepId) := by
      rw [hids]
      exact mem_map_of_mem hview
    obtain ⟨s, hs, hid⟩ := List.mem_map.mp hmem
    refine ⟨s, ?_, hid⟩
    rw [hassembled.statements]
    exact List.mem_append_left _ (List.mem_append_right _ hs)

/-- What the recovery statements say, staged sources first. -/
def recoveryEntries (request : DirectBuildRequest) : List (String × StatementSql) :=
  ((recreatedSources request).map fun source =>
    ("recover_staged_source_" ++ stepSegment (kafkaTableName source.name),
      .dropIfExists source.stagedRelationName)) ++
  (pausedLandingViews request).map fun view =>
    ("recover_source_" ++ stepSegment view, .createIfNotExists view)

/-- The recovery statements of a workflow that has statements. -/
structure RecoveryOf (request : DirectBuildRequest) (recovery : List WarehouseStatement) :
    Prop where
  entries : recovery.map (fun s => (s.stepId, s.sql)) = recoveryEntries request
  finalization : ∀ s ∈ recovery, s.phase = .finalization
  required : ∀ s ∈ recovery, s.continueOnError = false

theorem recoveryOf_sourceRecoveryStatements {recovery : List WarehouseStatement}
    (hnonempty : assembleStatements request ≠ [])
    (h : sourceRecoveryStatements request (assembleStatements request) = .ok recovery) :
    RecoveryOf request recovery := by
  rw [sourceRecoveryStatements, if_neg hnonempty] at h
  obtain ⟨activations, hactivations, h⟩ := bind_eq_ok.mp h
  cases h
  have hzip : ∀ pair ∈ (pausedLandingViews request).zip activations,
      pair.2.sql = .createIfNotExists pair.1 ∧ pair.2.continueOnError = false := by
    intro pair hpair
    have hview := of_mem_zip hpair |>.1
    have hfound := (forall₂_iff_zip.mp (forall₂_of_mapM_eq_ok hactivations)).2 hpair
    unfold activationByStepId at hfound
    split at hfound
    · cases hfound
    · next s hs =>
      cases hfound
      exact sql_of_activation (mem_reverse.mp (mem_of_find?_eq_some hs)) hview
        (by simpa using find?_some hs)
  have hlength : (pausedLandingViews request).length = activations.length :=
    (forall₂_of_mapM_eq_ok hactivations).length_eq
  refine ⟨?_, ?_, ?_⟩
  · have hactivated : ((pausedLandingViews request).zip activations).map (fun pair =>
        ("recover_source_" ++ stepSegment pair.1, pair.2.sql)) =
          (pausedLandingViews request).map fun view =>
            ("recover_source_" ++ stepSegment view, .createIfNotExists view) := by
      conv_rhs => rw [← map_fst_zip hlength.le, map_map]
      refine map_congr_left fun pair hpair => ?_
      rw [(hzip pair hpair).1]
      rfl
    rw [map_append, recoveryEntries, ← hactivated]
    congr 1
    · apply map_mapIdx_of_forall
      intro i source
      rfl
    · apply map_mapIdx_of_forall
      intro i pair
      rfl
  · intro s hs
    rcases mem_append.mp hs with hs | hs
    · obtain ⟨i, hi, rfl⟩ := mem_mapIdx.mp hs
      rfl
    · obtain ⟨i, hi, rfl⟩ := mem_mapIdx.mp hs
      rfl
  · intro s hs
    rcases mem_append.mp hs with hs | hs
    · obtain ⟨i, hi, rfl⟩ := mem_mapIdx.mp hs
      rfl
    · obtain ⟨i, hi, rfl⟩ := mem_mapIdx.mp hs
      exact (hzip _ (getElem_mem hi)).2

/-- The recovery statements are there whenever the workflow is assembled. -/
theorem exists_assembleDirectBuildWorkflow (request : DirectBuildRequest) :
    ∃ workflow, assembleDirectBuildWorkflow request = .ok workflow := by
  by_cases hempty : assembleStatements request = []
  · exact ⟨⟨[], request.runtimeReplays, []⟩, by
      simp [assembleDirectBuildWorkflow, sourceRecoveryStatements, hempty, bind, Except.bind, pure,
        Except.pure]⟩
  · have hfound : ∀ view ∈ pausedLandingViews request, ∃ activation,
        activationByStepId (assembleStatements request) ("activate_source_" ++ stepSegment view) =
          .ok activation := by
      intro view hview
      obtain ⟨s, hs, hid⟩ := exists_activation hempty hview
      unfold activationByStepId
      split
      · next hnone =>
        have habsent := find?_eq_none.mp hnone s (mem_reverse.mpr hs)
        simp [hid] at habsent
      · next found _ => exact ⟨found, rfl⟩
    obtain ⟨activations, hactivations⟩ := exists_mapM_eq_ok hfound
    exact ⟨_, by
      simp only [assembleDirectBuildWorkflow, sourceRecoveryStatements, if_neg hempty,
        hactivations, bind, Except.bind]
      rfl⟩

end

end SqlTide.Direct
