import SqlTide.Kafka.SourceDrift

/-!
# What a settings drift tells

Settings can be added, removed, kept and changed between the deployed source and the declared one.
Removed settings are not told, and neither are values that differ only in what reading back loses.
-/

namespace SqlTide.Kafka

open Foundations

section Differences

variable (masked : String → Bool) (deployed declared : String → Option String)

def Added : Prop := ∃ key, deployed key = none ∧ declared key ≠ none

def Removed : Prop :=
  ∃ key, masked key = false ∧ deployed key ≠ none ∧ declared key = none

/-- A setting of both sources, unmasked, whose two values are in the relation. -/
def Kept (relation : String → String → Prop) : Prop :=
  ∃ key value value', masked key = false ∧ deployed key = some value ∧
    declared key = some value' ∧ relation value value'

/-- The deployed value is read back as the declared one, or as the mask. -/
def ReadsAs (value value' : String) : Prop :=
  readBack value = value' ∨ readBack value = maskedSettingValue

/-- The declared settings are the deployed ones on every key that the catalog does not mask. -/
def SameUnmasked : Prop :=
  ∀ key, masked key = true ∧ deployed key ≠ none ∨ declared key = deployed key

/-- A difference that is not told comes with one that is, and where reading back makes a kept value
look changed there is a difference. -/
structure DifferencesTold : Prop where
  missed : Removed masked deployed declared ∨
      Kept masked deployed declared (fun value value' => value ≠ value' ∧ ReadsAs value value') →
    Added deployed declared ∨
      Kept masked deployed declared fun value value' => ¬ ReadsAs value value'
  invented : Kept masked deployed declared
        (fun value value' => value = value' ∧ ¬ ReadsAs value value') →
    Added deployed declared ∨ Removed masked deployed declared ∨
      Kept masked deployed declared (· ≠ ·)

theorem Kept.mono {masked : String → Bool} {deployed declared : String → Option String}
    {p q : String → String → Prop} (h : Kept masked deployed declared p)
    (hpq : ∀ value value', p value value' → q value value') : Kept masked deployed declared q := by
  obtain ⟨key, value, value', hmasked, hdeployed, hdeclared, hp⟩ := h
  exact ⟨key, value, value', hmasked, hdeployed, hdeclared, hpq value value' hp⟩

theorem sameUnmasked_iff :
    SameUnmasked masked deployed declared ↔
      ¬ (Added deployed declared ∨ Removed masked deployed declared ∨
        Kept masked deployed declared (· ≠ ·)) := by
  constructor
  · rintro hsame (⟨key, hnone, hsome⟩ | ⟨key, hmasked, hsome, hnone⟩ |
      ⟨key, value, value', hmasked, hdeployed, hdeclared, hne⟩)
    · rcases hsame key with ⟨-, hdeployed⟩ | heq
      · exact hdeployed hnone
      · exact hsome (heq.trans hnone)
    · rcases hsame key with ⟨hmask, -⟩ | heq
      · rw [hmasked] at hmask
        cases hmask
      · exact hsome (heq.symm.trans hnone)
    · rcases hsame key with ⟨hmask, -⟩ | heq
      · rw [hmasked] at hmask
        cases hmask
      · rw [hdeployed, hdeclared, Option.some_inj] at heq
        exact hne heq.symm
  · intro hnone key
    by_contra hkey
    rw [not_or, not_and, not_not] at hkey
    obtain ⟨hmask, hne⟩ := hkey
    apply hnone
    cases hdeployed : deployed key with
    | none => exact .inl ⟨key, hdeployed, fun h => hne (h.trans hdeployed.symm)⟩
    | some value =>
      have hmasked : masked key = false := by
        rw [← Bool.not_eq_true]
        intro h
        rw [hmask h] at hdeployed
        cases hdeployed
      cases hdeclared : declared key with
      | none => exact .inr (.inl ⟨key, hmasked, by simp [hdeployed], hdeclared⟩)
      | some value' =>
        refine .inr (.inr ⟨key, value, value', hmasked, hdeployed, hdeclared, ?_⟩)
        rintro rfl
        exact hne (hdeclared.trans hdeployed.symm)

theorem differencesTold_iff :
    (¬ (Added deployed declared ∨
        Kept masked deployed declared fun value value' => ¬ ReadsAs value value') ↔
      SameUnmasked masked deployed declared) ↔ DifferencesTold masked deployed declared := by
  rw [sameUnmasked_iff]
  have hchanged : Kept masked deployed declared (· ≠ ·) ↔
      Kept masked deployed declared (fun value value' => value ≠ value' ∧ ReadsAs value value') ∨
        Kept masked deployed declared
          fun value value' => value ≠ value' ∧ ¬ ReadsAs value value' := by
    constructor
    · rintro ⟨key, value, value', hmasked, hdeployed, hdeclared, hne⟩
      by_cases hreads : ReadsAs value value'
      · exact .inl ⟨key, value, value', hmasked, hdeployed, hdeclared, hne, hreads⟩
      · exact .inr ⟨key, value, value', hmasked, hdeployed, hdeclared, hne, hreads⟩
    · rintro (h | h) <;> exact h.mono fun _ _ h => h.1
  have htold : Kept masked deployed declared (fun value value' => ¬ ReadsAs value value') ↔
      Kept masked deployed declared
          (fun value value' => value = value' ∧ ¬ ReadsAs value value') ∨
        Kept masked deployed declared
          fun value value' => value ≠ value' ∧ ¬ ReadsAs value value' := by
    constructor
    · rintro ⟨key, value, value', hmasked, hdeployed, hdeclared, hreads⟩
      by_cases heq : value = value'
      · exact .inl ⟨key, value, value', hmasked, hdeployed, hdeclared, heq, hreads⟩
      · exact .inr ⟨key, value, value', hmasked, hdeployed, hdeclared, heq, hreads⟩
    · rintro (h | h) <;> exact h.mono fun _ _ h => h.2
  constructor
  · intro h
    constructor
    · rw [htold]
      tauto
    · tauto
  · rintro ⟨hmissed, hinvented⟩
    rw [htold] at hmissed ⊢
    tauto

end Differences

section Exactness

variable {masked : String → Bool} {deployed declared : AdapterManagedSource} {database : String}

/-- A drift is told for an added setting, and for a kept one that is read back otherwise. -/
theorem managedSourceDrift_eq_nil_iff (hdeclared : OwnSettings declared) :
    managedSourceDrift declared (deployedRelation masked deployed database) = [] ↔
      ¬ (Added (dictGet (declaredSettings deployed)) (dictGet (declaredSettings declared)) ∨
        Kept masked (dictGet (declaredSettings deployed)) (dictGet (declaredSettings declared))
          fun value value' => ¬ ReadsAs value value') := by
  have hactual : ∀ key value', dictGet (declaredSettings declared) key = some value' →
      dictGet (actualSettings (deployedRelation masked deployed database)) key =
        (dictGet (declaredSettings deployed) key).map fun value =>
          if masked key then maskedSettingValue else readBack value := by
    intro key value' hvalue
    rw [dictGet_actualSettings, dictGet_tableSettings]
    rintro rfl
    rw [dictGet_declaredSettings_group hdeclared] at hvalue
    cases hvalue
  rw [managedSourceDrift, List.filterMap_eq_nil_iff]
  constructor
  · rintro h (⟨key, hnone, hsome⟩ | ⟨key, value, value', hmasked, hvalue, hvalue', hreads⟩)
    · obtain ⟨value', hvalue'⟩ := Option.ne_none_iff_exists'.mp hsome
      have hkey := h (key, value') (mem_dictItems.mpr hvalue')
      simp [hactual key value' hvalue', hnone] at hkey
    · have hkey := h (key, value') (mem_dictItems.mpr hvalue')
      simp only [hactual key value' hvalue', hvalue, hmasked, Option.map_some, Option.some_inj,
        Bool.false_eq_true, if_false, ite_eq_left_iff, reduceCtorEq, imp_false, not_not] at hkey
      exact hreads hkey
  · rintro h ⟨key, value'⟩ hmem
    have hvalue' := mem_dictItems.mp hmem
    rw [not_or] at h
    simp only [hactual key value' hvalue', ite_eq_left_iff, reduceCtorEq, imp_false, not_not]
    cases hvalue : dictGet (declaredSettings deployed) key with
    | none =>
      refine absurd ⟨key, hvalue, ?_⟩ h.1
      simp [hvalue']
    | some value =>
      cases hmasked : masked key with
      | true => simp
      | false =>
        by_contra hreads
        refine h.2 ⟨key, value, value', hmasked, hvalue, hvalue', ?_⟩
        simpa [ReadsAs] using hreads

/-- Every setting of the table is compared, the consumer group among them. -/
theorem clickhouseCatalogResourceMatches_iff (hdeployed : OwnSettings deployed)
    (hdeclared : OwnSettings declared) (hmasked : ∀ key, masked key = false)
    (hcolumns : deployed.columns = declared.columns)
    (hgroup : deployed.consumerGroup = declared.consumerGroup) :
    clickhouseCatalogResourceMatches declared (deployedRelation masked deployed database)
        database = true ↔
      readBack (databaseScopedConsumerGroup deployed.consumerGroup database) =
          databaseScopedConsumerGroup deployed.consumerGroup database ∧
        ∀ key, (dictGet (declaredSettings deployed) key).map readBack =
          dictGet (declaredSettings declared) key := by
  have hmatches : clickhouseCatalogResourceMatches declared
      (deployedRelation masked deployed database) database = true ↔
      ∀ key, (dictGet (tableSettings deployed database) key).map readBack =
        dictGet (tableSettings declared database) key := by
    have heq : (declared.columns ≠ [] ∧
        declared.columns ≠ (deployedRelation masked deployed database).columns) ↔ False := by
      simp [deployedRelation, hcolumns]
    have hactual : ∀ key,
        dictGet (actualSettings (deployedRelation masked deployed database)) key =
          (dictGet (tableSettings deployed database) key).map readBack := by
      intro key
      rw [dictGet_actualSettings]
      simp only [hmasked, Bool.false_eq_true, if_false]
    have hengine : (deployedRelation masked deployed database).engine = "Kafka" := rfl
    rw [clickhouseCatalogResourceMatches, if_neg (by rw [heq]; exact id), decide_eq_true_eq,
      dictEq_iff, and_iff_right hengine]
    simp only [hactual]
  rw [hmatches]
  constructor
  · intro h
    have hread := h "kafka_group_name"
    rw [dictGet_tableSettings_group hdeployed, dictGet_tableSettings_group hdeclared, ← hgroup,
      Option.map_some, Option.some_inj] at hread
    refine ⟨hread, fun key => ?_⟩
    by_cases hkey : key = "kafka_group_name"
    · rw [hkey, dictGet_declaredSettings_group hdeployed, dictGet_declaredSettings_group hdeclared]
      rfl
    · have htable := h key
      rw [dictGet_tableSettings deployed hkey, dictGet_tableSettings declared hkey] at htable
      exact htable
  · rintro ⟨hread, h⟩ key
    by_cases hkey : key = "kafka_group_name"
    · rw [hkey, dictGet_tableSettings_group hdeployed, dictGet_tableSettings_group hdeclared,
        ← hgroup, Option.map_some, hread]
    · rw [dictGet_tableSettings deployed hkey, dictGet_tableSettings declared hkey]
      exact h key

/-- No drift is told exactly where the unmasked settings are the same, and where nothing is masked
and the rest of the source is the same the comparison of the whole resource agrees. -/
structure DriftExact (masked : String → Bool) (deployed declared : AdapterManagedSource)
    (database : String) : Prop where
  exact : managedSourceDrift declared (deployedRelation masked deployed database) = [] ↔
    SameUnmasked masked (dictGet (declaredSettings deployed)) (dictGet (declaredSettings declared))
  agrees : (∀ key, masked key = false) → deployed.columns = declared.columns →
    deployed.consumerGroup = declared.consumerGroup →
    (managedSourceDrift declared (deployedRelation masked deployed database) = [] ↔
      clickhouseCatalogResourceMatches declared (deployedRelation masked deployed database)
        database = true)

/-- The differences between the sources are told, and between equal ones nothing is lost in reading
back: the consumer group has no quote at its ends, and only the mask is read back as the mask. -/
structure DriftTold (masked : String → Bool) (deployed declared : AdapterManagedSource)
    (database : String) : Prop where
  differences : DifferencesTold masked (dictGet (declaredSettings deployed))
    (dictGet (declaredSettings declared))
  equal : (∀ key, masked key = false) → deployed.columns = declared.columns →
    deployed.consumerGroup = declared.consumerGroup →
    (∀ key, dictGet (declaredSettings declared) key = dictGet (declaredSettings deployed) key) →
    readBack (databaseScopedConsumerGroup deployed.consumerGroup database) =
        databaseScopedConsumerGroup deployed.consumerGroup database ∧
      ∀ key value, dictGet (declaredSettings deployed) key = some value →
        readBack value = maskedSettingValue → value = maskedSettingValue

theorem managedSourceDrift_eq_nil_of_matches (hdeployed : OwnSettings deployed)
    (hdeclared : OwnSettings declared) (hmasked : ∀ key, masked key = false)
    (hcolumns : deployed.columns = declared.columns)
    (hgroup : deployed.consumerGroup = declared.consumerGroup)
    (h : clickhouseCatalogResourceMatches declared (deployedRelation masked deployed database)
      database = true) :
    managedSourceDrift declared (deployedRelation masked deployed database) = [] := by
  have hread :=
    ((clickhouseCatalogResourceMatches_iff hdeployed hdeclared hmasked hcolumns hgroup).mp h).2
  rw [managedSourceDrift_eq_nil_iff hdeclared]
  rintro (⟨key, hnone, hsome⟩ | ⟨key, value, value', -, hvalue, hvalue', hreads⟩)
  · have hkey := hread key
    rw [hnone] at hkey
    exact hsome hkey.symm
  · have hkey := hread key
    rw [hvalue, hvalue', Option.map_some, Option.some_inj] at hkey
    exact hreads (.inl hkey)

/-- The drift of the settings is exact if and only if the differences are told. -/
theorem driftExact_iff (deployedRequest declaredRequest : ManagedSourceRequest)
    (masked : String → Bool) (deployed declared : AdapterManagedSource) (database : String)
    (hdeployed : realizeManagedSource deployedRequest = .ok deployed)
    (hdeclared : realizeManagedSource declaredRequest = .ok declared) :
    DriftExact masked deployed declared database ↔
      DriftTold masked deployed declared database := by
  have hdeployed := ownSettings_of_realizeManagedSource hdeployed
  have hdeclared := ownSettings_of_realizeManagedSource hdeclared
  have hexact : (managedSourceDrift declared (deployedRelation masked deployed database) = [] ↔
      SameUnmasked masked (dictGet (declaredSettings deployed))
        (dictGet (declaredSettings declared))) ↔
      DifferencesTold masked (dictGet (declaredSettings deployed))
        (dictGet (declaredSettings declared)) := by
    rw [managedSourceDrift_eq_nil_iff hdeclared]
    exact differencesTold_iff masked _ _
  constructor
  · rintro ⟨hsame, hagrees⟩
    refine ⟨hexact.mp hsame, fun hmasked hcolumns hgroup hequal => ?_⟩
    have hnone := hsame.mpr fun key => .inr (hequal key)
    obtain ⟨hread, hvalues⟩ := (clickhouseCatalogResourceMatches_iff hdeployed hdeclared hmasked
      hcolumns hgroup).mp ((hagrees hmasked hcolumns hgroup).mp hnone)
    refine ⟨hread, fun key value hvalue hmask => ?_⟩
    have hkey := hvalues key
    rw [hequal key, hvalue, Option.map_some, Option.some_inj] at hkey
    rw [← hkey, hmask]
  · rintro ⟨hdifferences, hequal⟩
    have hsame := hexact.mpr hdifferences
    refine ⟨hsame, fun hmasked hcolumns hgroup => ⟨fun hnone => ?_,
      managedSourceDrift_eq_nil_of_matches hdeployed hdeclared hmasked hcolumns hgroup⟩⟩
    have hdeclaredEq : ∀ key, dictGet (declaredSettings declared) key =
        dictGet (declaredSettings deployed) key := by
      intro key
      rcases hsame.mp hnone key with ⟨hmask, -⟩ | heq
      · rw [hmasked key] at hmask
        cases hmask
      · exact heq
    obtain ⟨hread, hvalues⟩ := hequal hmasked hcolumns hgroup hdeclaredEq
    refine (clickhouseCatalogResourceMatches_iff hdeployed hdeclared hmasked hcolumns hgroup).mpr
      ⟨hread, fun key => ?_⟩
    rw [hdeclaredEq key]
    cases hvalue : dictGet (declaredSettings deployed) key with
    | none => rfl
    | some value =>
      have hreads : ReadsAs value value := by
        by_contra hreads
        refine (managedSourceDrift_eq_nil_iff hdeclared).mp hnone (.inr ?_)
        exact ⟨key, value, value, hmasked key, hvalue, (hdeclaredEq key).trans hvalue, hreads⟩
      rw [Option.map_some, Option.some_inj]
      rcases hreads with hreads | hmask
      · exact hreads
      · rw [hmask, hvalues key value hvalue hmask]

/-- A deployed source with a setting, and the same source without it. -/
def sampleRequest (settings : List (String × String)) : ManagedSourceRequest :=
  { logicalName := "orders", sourceKind := "kafka", brokerList := "kafka:9092"
    topic := "source.orders", consumerGroup := none, format := "JSONAsString"
    settings := settings }

def sampleSource (settings : List (String × String)) : AdapterManagedSource :=
  { sourceKind := "kafka", name := Compiler.kafkaTableName "orders"
    columns := [{ name := "message", type := "String" }]
    brokerList := "kafka:9092", topic := "source.orders"
    consumerGroup := consumerGroupOf (sampleRequest []), format := "JSONAsString"
    settings := settings }

theorem driftExact_iff_changed :
    DriftExact (fun _ => false) (sampleSource [("kafka_num_consumers", "4")])
        (sampleSource [("kafka_num_consumers", "2")]) "analytics" ↔
      DriftTold (fun _ => false) (sampleSource [("kafka_num_consumers", "4")])
        (sampleSource [("kafka_num_consumers", "2")]) "analytics" :=
  driftExact_iff (sampleRequest [("kafka_num_consumers", "4")])
    (sampleRequest [("kafka_num_consumers", "2")]) _ _ _ _ (by decide +kernel) (by decide +kernel)

/-- The removal of a setting is no drift. -/
theorem not_driftExact :
    ¬ ∀ (deployedRequest declaredRequest : ManagedSourceRequest) (masked : String → Bool)
      (deployed declared : AdapterManagedSource) (database : String),
      realizeManagedSource deployedRequest = .ok deployed →
      realizeManagedSource declaredRequest = .ok declared →
      DriftExact masked deployed declared database := by
  intro h
  have hexact := (h (sampleRequest [("kafka_max_block_size", "500")]) (sampleRequest [])
    (fun _ => false) (sampleSource [("kafka_max_block_size", "500")]) (sampleSource [])
    "analytics" (by decide +kernel) (by decide +kernel)).exact
  have hnone : managedSourceDrift (sampleSource []) (deployedRelation (fun _ => false)
      (sampleSource [("kafka_max_block_size", "500")]) "analytics") = [] := by decide +kernel
  rcases hexact.mp hnone "kafka_max_block_size" with ⟨hmasked, -⟩ | heq
  · cases hmasked
  · revert heq
    decide +kernel

end Exactness

end SqlTide.Kafka
