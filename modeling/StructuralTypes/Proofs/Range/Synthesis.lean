import StructuralTypes.Proofs.Range.Session
import StructuralTypes.Synthesis.Readonly

/-!
# Synthesis in a closed session

Each operation of a synthesis gives its steps handles of three kinds: those that it was asked with,
those that it has read off the session, and those that it has just been given for something new. All
of them lead to something, so the operation is secure, and what it stores leads to something too.

A cloner is secure from an extent on if it is so at every larger one. The search for a readonly
variant is secure by induction on its depth: a step of the search is if the cloner for the parts is.

Results:
* `secure_buildField`, `secure_buildFields`: fields are built anew.
* `secure_attachInitializer`: a structure gets its initializer.
* `secure_registerAnonymousRecord`: an anonymous record is registered.
* **`secureCloner_readonlyVariant`**: a readonly variant is searched for.
-/

namespace StructuralTypes

namespace Synth

variable {α : Type} [HasHandles α] {b : Extent} {ctx : Context} {ty : TypeId} {y : SymbolId}

/-- A closed session has the builtin types. -/
theorem reads_of_builtin {x : Synth α} (h : Within b Builtin.all → Reads b x) : Reads b x := by
  rintro s rfl hclosed
  exact h (within_typeTable.1 hclosed.tables.types).1 s rfl hclosed

theorem secure_of_builtin {x : Synth α} (h : Within b Builtin.all → Secure b x) : Secure b x := by
  rintro s rfl hclosed
  exact h (within_typeTable.1 hclosed.tables.types).1 s rfl hclosed

/-! ## Fields -/

/-- The cloner is secure from this extent on. -/
def SecureCloner (b : Extent) (clone : Cloner) : Prop :=
  ∀ b', b ≤ b' → ∀ stamp ty, Within b' stamp → Within b' ty → Secure b' (clone stamp ty)

theorem SecureCloner.mono {b' : Extent} {clone : Cloner} (h : SecureCloner b clone) (hb : b ≤ b') :
    SecureCloner b' clone :=
  fun b'' hb' => h b'' (Extent.le_trans hb hb')

theorem reads_fieldDeclaration {plan : FieldPlan} {template : Field} (hplan : Within b plan)
    (htemplate : Within b template) (hty : Within b ty) :
    Reads b (fieldDeclaration plan template ty) := by
  have hd : ∀ d : Declaration, d.ty = some ty → d.owner = some plan.holder → Within b d := by
    intro d ht ho
    rw [within_declaration, ht, ho]
    exact ⟨within_some.2 hty, within_some.2 hplan⟩
  unfold fieldDeclaration
  split
  · exact reads_pure (hd _ rfl rfl)
  · rename_i z hz
    have hin : Within b z := within_some.1 (hz ▸ (within_field.1 htemplate).2)
    exact (reads_symbol hin).bind_reads fun named _ => reads_pure (hd _ rfl rfl)

theorem reads_functionTypeSymbol? {e : TypeEntry} (he : Within b e) :
    Reads b (functionTypeSymbol? e) := by
  unfold functionTypeSymbol?
  split
  · rename_i z _ hz
    have hin : Within b z := within_some.1 (hz ▸ (within_typeEntry.1 he).2)
    refine (reads_symbol hin).bind_reads fun named hnamed => reads_pure ?_
    have hkind := (within_symbol.1 hnamed).2.2.1
    refine within_option.2 fun p hp => ?_
    obtain ⟨signature, hs, rfl⟩ := Option.map_eq_some_iff.1 hp
    refine within_prod.2 ⟨hnamed, ?_⟩
    unfold Symbol.functionType? at hs
    split at hs
    · rename_i hk
      rw [hk] at hkind
      exact Option.some.inj hs ▸ hkind
    · cases hs
  · exact reads_pure within_none

theorem reads_specializeField (kind : StructureKind) {d : Declaration} {e : TypeEntry}
    (hd : Within b d) (he : Within b e) : Reads b (specializeField kind d e) := by
  obtain ⟨hty, howner⟩ := within_declaration.1 hd
  unfold specializeField
  refine reads_of_builtin fun hbuiltin => (reads_functionTypeSymbol? he).bind_reads fun o ho => ?_
  split
  · refine reads_pure (within_prod.2 ⟨?_, within_declaration.2 ⟨hty, howner⟩⟩)
    exact within_functionSpec.2 ⟨(within_prod.1 (within_some.1 ho)).2, within_none⟩
  · split
    · refine reads_pure (within_prod.2 ⟨within_variable, within_declaration.2 ⟨?_, howner⟩⟩)
      exact within_some.2 (within_builtin hbuiltin (by decide))
    · exact reads_pure (within_prod.2 ⟨within_variable, hd⟩)

section Fields

variable {cloner : Option Cloner} (hcloner : ∀ clone ∈ cloner, SecureCloner b clone)
include hcloner

theorem secure_fieldType (hctx : Within b ctx) (plan : FieldPlan) (hty : Within b ty) :
    Secure b (fieldType ctx cloner plan ty) := by
  unfold fieldType
  split
  · split
    · exact hcloner _ (Option.mem_some_self _) b b.le_refl _ ty (within_context.1 hctx).2 hty
    · exact secure_fail _
  · exact secure_pure hty

/-- **A field is built**: its symbol is new, and so can be bound. -/
theorem secure_buildField {plan : FieldPlan} {template : Field} (hctx : Within b ctx)
    (hplan : Within b plan) (htemplate : Within b template) :
    Secure b (buildField ctx cloner plan template) := by
  unfold buildField
  refine (secure_fieldType hcloner hctx plan (within_field.1 htemplate).1).bind
    fun ty b₁ h₁ hty => ?_
  refine (reads_fieldDeclaration (hplan.mono h₁) (htemplate.mono h₁) hty).bind fun d hd => ?_
  refine (reads_implied hty).bind fun base hbase => (reads_entry hbase).bind fun e he => ?_
  refine (reads_specializeField plan.kind hd he).bind fun ⟨kind, d⟩ hkind => ?_
  obtain ⟨hkind, hd⟩ := within_prod.1 hkind
  refine (secure_addSymbol hkind hd).bind fun z b₂ h₂ hz => ?_
  refine (reads_typeOf hz).bind fun ty' hty' => ?_
  refine (secure_define ((hplan.mono h₁).mono h₂) template.name hz).bind fun _ b₃ h₃ _ => ?_
  exact secure_pure (within_field.2 ⟨hty'.mono h₃, within_some.2 (hz.mono h₃)⟩)

omit hcloner in
theorem secure_setFields (hty : Within b ty) {fields : List Field} (hfields : Within b fields) :
    Secure b (setFields ty fields) := by
  refine secure_changeType hty fun e he => within_typeEntry.2 ⟨?_, (within_typeEntry.1 he).2⟩
  refine (within_typeEntry.1 he).1.mapFields fun _ _ => Within.ofList (within_list.2 fun p hp => ?_)
  obtain ⟨f, hf, rfl⟩ := List.mem_map.1 hp
  exact within_prod.2 ⟨within_string _, within_list.1 hfields f hf⟩

omit hcloner in
theorem reads_sourceReference (span : Span) (hty : Within b ty) :
    Reads b (sourceReference span ty) := by
  unfold sourceReference
  refine (reads_symbolOf hty).bind_reads fun z hz => (reads_symbol hz).bind_reads fun named _ => ?_
  refine (reads_qualifierFor named.package).bind_reads fun _ _ => ?_
  exact reads_pure (within_typeReference.2 (within_some.2 hty))

/-- **The fields of a structure are built anew**, one after the other. -/
theorem secure_buildFields {p : Population} {node : StructureNode} (hctx : Within b ctx)
    (hp : Within b p) (hnode : Within b node) : Secure b (buildFields ctx cloner p node) := by
  obtain ⟨htarget, hsource⟩ := within_population.1 hp
  unfold buildFields
  refine (reads_kindOf hsource).bind fun sourceKind _ => ?_
  refine (reads_kindOf htarget).bind fun kind _ => ?_
  refine (reads_symbolOf htarget).bind fun holder hholder => ?_
  refine (reads_fieldsOf hsource).bind fun templates htemplates => ?_
  refine (secure_mapM fun f hf b' h => ?_).bind fun built b₁ h₁ hbuilt => ?_
  · exact secure_buildField (fun clone hc => (hcloner clone hc).mono h) (hctx.mono h)
      (within_fieldPlan.2 (hholder.mono h)) ((within_list.1 htemplates.values f hf).mono h)
  refine (secure_setFields (htarget.mono h₁) hbuilt).bind fun _ b₂ h₂ _ => ?_
  have hnode₂ := (hnode.mono h₁).mono h₂
  split
  · refine (reads_sourceReference p.span ((hsource.mono h₁).mono h₂)).bind fun r hr => ?_
    obtain ⟨hty, hsymbol, hfields, hreferences, hinitializer⟩ := within_structureNode.1 hnode₂
    refine secure_pure (within_structureNode.2 ⟨hty, hsymbol, hfields, ?_, hinitializer⟩)
    exact within_append.2 ⟨hreferences, within_cons.2 ⟨hr, within_nil⟩⟩
  · exact secure_pure hnode₂

end Fields

/-! ## Declarations and nodes -/

theorem secure_fieldDeclarationNode (package : PackageId) {f : Field} (hf : Within b f) :
    Secure b (fieldDeclarationNode package f) := by
  obtain ⟨hty, hsymbol⟩ := within_field.1 hf
  unfold fieldDeclarationNode
  refine secure_of_builtin fun hbuiltin => Secure.bind (α := SymbolId) ?_ fun z b₁ h₁ hz => ?_
  · cases hz : f.symbol with
    | none =>
      refine secure_addSymbol within_variable (within_declaration.2 ⟨?_, within_none⟩)
      exact within_some.2 (within_builtin hbuiltin (by decide))
    | some z => exact secure_pure (within_some.1 (hz ▸ hsymbol))
  · refine (reads_symbol hz).bind fun named _ => ?_
    exact secure_pure (within_variableNode.2 ⟨hty.mono h₁, hz⟩)

theorem secure_fieldDeclarations (hty : Within b ty) (package : PackageId) :
    Secure b (fieldDeclarations ty package) := by
  unfold fieldDeclarations
  refine (reads_fieldsOf hty).bind fun fields hfields => secure_mapM fun f hf b' h => ?_
  exact secure_fieldDeclarationNode package ((within_list.1 hfields.values f hf).mono h)

theorem secure_recordNode (hty : Within b ty) (package : PackageId) (span : Span) :
    Secure b (recordNode ty package span) := by
  unfold recordNode
  refine (reads_requireRecord hty).bind fun _ _ => ?_
  refine (secure_fieldDeclarations hty package).bind fun fields b₁ h₁ hfields => ?_
  refine (reads_entry (hty.mono h₁)).bind fun e he => secure_pure (within_structureNode.2 ?_)
  exact ⟨within_some.2 (hty.mono h₁), (within_typeEntry.1 he).2, hfields, within_nil, within_none⟩

theorem secure_objectNode (hty : Within b ty) (span : Span) : Secure b (objectNode ty span) := by
  unfold objectNode
  refine (reads_requireObject hty).bind fun _ _ => (reads_symbolOf hty).bind fun z hz => ?_
  refine (reads_symbol hz).bind fun named _ => ?_
  refine (secure_fieldDeclarations hty named.package).bind fun fields b₁ h₁ hfields => ?_
  exact secure_pure (within_structureNode.2
    ⟨within_some.2 (hty.mono h₁), within_some.2 (hz.mono h₁), hfields, within_nil, within_none⟩)

theorem reads_errorDetail (hty : Within b ty) : Reads b (errorDetail ty) := by
  unfold errorDetail
  refine (reads_implied hty).bind_reads fun base hbase => ?_
  refine (reads_entry hbase).bind_reads fun e he => ?_
  split
  · rename_i detail hdetail
    have hin : Within b (Ty.error detail) := hdetail ▸ (within_typeEntry.1 he).1
    exact reads_implied hin
  · exact reads_fail _

theorem reads_nameOrEmpty {e : TypeEntry} (he : Within b e) : Reads b (nameOrEmpty e) := by
  unfold nameOrEmpty
  split
  · rename_i z hz
    have hin : Within b z := within_some.1 (hz ▸ (within_typeEntry.1 he).2)
    exact (reads_symbol hin).bind_reads fun _ _ => reads_pure (within_string _)
  · exact reads_pure (within_string _)

theorem secure_errorDetailReferenceName {e : TypeEntry} (he : Within b e) :
    Secure b (errorDetailReferenceName e) := by
  unfold errorDetailReferenceName
  refine (reads_nameOrEmpty he).bind fun name _ => ?_
  split
  · exact reads_packageId.bind fun package _ => secure_nextName .errorDetail package
  · exact secure_pure (within_string _)

theorem secure_errorNode (hty : Within b ty) (span : Span) : Secure b (errorNode ty span) := by
  unfold errorNode
  refine secure_of_builtin fun hbuiltin => (reads_errorDetail hty).bind fun detail hdetail => ?_
  refine (reads_entry hdetail).bind fun e he => ?_
  split
  · refine secure_pure (within_errorNode.2 ⟨within_some.2 hty, ?_⟩)
    refine within_constrainedNode.2 ⟨within_mapConstructor _, ?_⟩
    exact within_some.2 (within_builtin hbuiltin (by decide))
  · refine (secure_errorDetailReferenceName he).bind fun name b₁ h₁ _ => ?_
    exact secure_pure (within_errorNode.2
      ⟨within_some.2 (hty.mono h₁), within_some.2 (hdetail.mono h₁)⟩)

/-! ## Initializers -/

section Initializers

variable {plan : InitializerPlan}

/-- **An initializer is made**: each of its parts is new when it is tied to the others. -/
theorem secure_createInitializer (ctx : Context) (hplan : Within b plan) :
    Secure b (createInitializer ctx plan) := by
  unfold createInitializer
  refine reads_packageId.bind fun package _ => ?_
  refine (reads_nameOf (within_initializerPlan.1 hplan).1).bind fun name _ => ?_
  dsimp only
  refine (secure_addSymbol within_variable (within_declaration.2 ⟨?_, within_none⟩)).bind
    fun receiver b₁ h₁ hreceiver => ?_
  · exact within_some.2 (within_initializerPlan.1 hplan).1
  have hplan₁ := hplan.mono h₁
  refine (secure_addType (within_typeEntry.2 ⟨?_, within_none⟩)).bind fun type b₂ h₂ htype => ?_
  · exact within_invokable.2 ⟨within_nil, within_none, (within_initializerPlan.1 hplan₁).2.2⟩
  have hplan₂ := hplan₁.mono h₂
  have hreceiver₂ := hreceiver.mono h₂
  refine (secure_addSymbol ?_ (within_declaration.2 ⟨within_some.2 htype, ?_⟩)).bind
    fun function b₃ h₃ hfunction => ?_
  · exact within_functionSpec.2 ⟨within_signature.2 ⟨within_nil, within_none, within_none⟩,
      within_none⟩
  · exact within_some.2 (within_initializerPlan.1 hplan₂).2.1
  refine (secure_openScope hfunction).bind fun _ b₄ h₄ _ => ?_
  have hfunction₄ := hfunction.mono h₄
  have hreceiver₄ := (hreceiver₂.mono h₃).mono h₄
  refine (secure_define hfunction₄ _ hreceiver₄).bind fun _ b₅ h₅ _ => ?_
  have hplan₅ := ((hplan₂.mono h₃).mono h₄).mono h₅
  have hreceiver₅ := hreceiver₄.mono h₅
  have hfunction₅ := hfunction₄.mono h₅
  have hreturns := within_some.2 (within_initializerPlan.1 hplan₅).2.2
  refine (secure_changeSymbol hfunction₅ fun named hnamed =>
    hnamed.mapFunction fun info hinfo => ?_).bind fun _ b₆ h₆ _ => ?_
  · obtain ⟨hparams, hrest, -⟩ := within_signature.1 (within_functionSpec.1 hinfo).1
    exact within_functionSpec.2
      ⟨within_signature.2 ⟨hparams, hrest, hreturns⟩, within_some.2 hreceiver₅⟩
  refine (secure_changeSymbol (hreceiver₅.mono h₆) fun named hnamed => ?_).bind
    fun _ b₇ h₇ _ => ?_
  · obtain ⟨hd, hid, hkind, hscope⟩ := within_symbol.1 hnamed
    refine within_symbol.2 ⟨within_declaration.2 ⟨(within_declaration.1 hd).1, ?_⟩, hid, hkind,
      hscope⟩
    exact within_some.2 (hfunction₅.mono h₆)
  have h₂₇ := Extent.le_trans (Extent.le_trans h₃ h₄)
    (Extent.le_trans h₅ (Extent.le_trans h₆ h₇))
  have hfunction₇ := (hfunction₅.mono h₆).mono h₇
  refine (secure_addSymbol ?_ (within_declaration.2 ⟨within_some.2 (htype.mono h₂₇),
    within_some.2 hfunction₇⟩)).bind fun typeSymbol b₈ h₈ htypeSymbol => ?_
  · exact within_signature.2 ⟨within_nil, within_none, (hreturns.mono h₆).mono h₇⟩
  refine (secure_changeType ((htype.mono h₂₇).mono h₈) fun e he => ?_).bind fun _ b₉ h₉ _ => ?_
  · exact within_typeEntry.2 ⟨(within_typeEntry.1 he).1, within_some.2 htypeSymbol⟩
  have h₂₉ := Extent.le_trans h₂₇ (Extent.le_trans h₈ h₉)
  have hplan₉ := within_initializerPlan.1 (hplan₂.mono h₂₉)
  refine secure_pure (within_functionNode.2
    ⟨(hfunction₇.mono h₈).mono h₉, htype.mono h₂₉, within_some.2 ?_, hplan₉.2.2⟩)
  exact within_variableNode.2 ⟨hplan₉.1, hreceiver₂.mono h₂₉⟩

/-- **A structure gets its initializer**, and its symbol records it. -/
theorem secure_attachInitializer {node : StructureNode} (hctx : Within b ctx)
    (hnode : Within b node) : Secure b (attachInitializer ctx node) := by
  obtain ⟨htype, hsymbol, -⟩ := within_structureNode.1 hnode
  unfold attachInitializer
  split
  · exact secure_fail _
  rename_i type htype'
  have hin : Within b type := within_some.1 (htype' ▸ htype)
  refine secure_of_builtin fun hbuiltin => Reads.bind (α := SymbolId) ?_ fun owner howner => ?_
  · cases hz : node.symbol with
    | none => exact reads_symbolOf hin
    | some z => exact reads_pure (within_some.1 (hz ▸ hsymbol))
  have hreturns : Within b (ctx.settings.initializerReturns.getD Builtin.nil) := by
    have hset := within_settings.1 (within_context.1 hctx).1
    cases hr : ctx.settings.initializerReturns with
    | none => exact within_builtin hbuiltin (by decide)
    | some returns => exact within_some.1 (hr ▸ hset)
  refine (secure_createInitializer ctx (within_initializerPlan.2 ⟨hin, howner, hreturns⟩)).bind
    fun f b₁ h₁ hf => ?_
  obtain ⟨hfunction, hfunctionType, -⟩ := within_functionNode.1 hf
  refine (secure_define (howner.mono h₁) _ hfunction).bind fun _ b₂ h₂ _ => ?_
  refine (secure_changeTypeLinks ((howner.mono h₁).mono h₂) _ fun info hinfo => ?_).bind
    fun _ b₃ h₃ _ => ?_
  · refine within_typeLinks.2 ⟨within_some.2 ?_, (within_typeLinks.1 hinfo).2⟩
    exact within_initializerLink.2 ⟨hfunction.mono h₂, hfunctionType.mono h₂⟩
  have h₁₃ := Extent.le_trans h₂ h₃
  obtain ⟨hty, hz, hfields, hreferences, -⟩ :=
    within_structureNode.1 (hnode.mono (Extent.le_trans h₁ h₁₃))
  exact secure_pure (within_prod.2 ⟨hfunction.mono h₁₃, within_structureNode.2
    ⟨hty, hz, hfields, hreferences, within_some.2 (hf.mono h₁₃)⟩⟩)

end Initializers

/-! ## Definitions -/

section Definitions

variable {node : TypeNode}

theorem reads_draftDefinition (hty : Within b ty) (hy : Within b y) (hnode : Within b node) :
    Reads b (draftDefinition ty y node) := by
  unfold draftDefinition
  refine (reads_symbol hy).bind_reads fun named _ => reads_pure ?_
  exact within_typeDefinition.2 ⟨within_some.2 hty, hy, hnode⟩

theorem secure_registerDefinition (hty : Within b ty) (hy : Within b y) (hnode : Within b node) :
    Secure b (registerDefinition ty y node) := by
  unfold registerDefinition
  exact (reads_draftDefinition hty hy hnode).bind fun d hd => secure_registerType hd

theorem secure_registerSynthesizedDefinition (hty : Within b ty) (hy : Within b y)
    (hnode : Within b node) : Secure b (registerSynthesizedDefinition ty y node) := by
  unfold registerSynthesizedDefinition
  refine (reads_symbol hy).bind fun template htemplate => ?_
  refine (secure_addSymbol within_typeDefinitionKind (within_declaration.2 ⟨?_, ?_⟩)).bind
    fun z b₁ h₁ hz => ?_
  · exact within_some.2 hty
  · exact (within_declaration.1 (within_symbol.1 htemplate).1).2
  refine (secure_openScope hz).bind fun _ b₂ h₂ _ => ?_
  have hty₂ := (hty.mono h₁).mono h₂
  have hnode₂ := (hnode.mono h₁).mono h₂
  have hz₂ := hz.mono h₂
  refine (reads_entry hty₂).bind fun e he => ?_
  split
  · rename_i named hnamed
    have hin : Within b₂ named := within_some.1 (hnamed ▸ (within_typeEntry.1 he).2)
    refine (secure_changeSymbol hin fun _ hs => hs.mapTypeLinks fun info hinfo => ?_).bind
      fun _ b₃ h₃ _ => secure_registerDefinition (hty₂.mono h₃) (hz₂.mono h₃) (hnode₂.mono h₃)
    exact within_typeLinks.2 ⟨(within_typeLinks.1 hinfo).1, within_some.2 hz₂⟩
  · exact (secure_pure (within_unit ())).bind fun _ b₃ h₃ _ =>
      secure_registerDefinition (hty₂.mono h₃) (hz₂.mono h₃) (hnode₂.mono h₃)

theorem secure_registerClassOf (span : Span) (hy : Within b y) :
    Secure b (registerClassOf span y) := by
  unfold registerClassOf
  refine (reads_typeOf hy).bind fun type htype => (reads_requireObject htype).bind fun _ _ => ?_
  refine (reads_symbol hy).bind fun named _ => ?_
  refine (secure_fieldDeclarations htype named.package).bind fun fields b₁ h₁ hfields => ?_
  exact secure_registerClass (within_classDefinition.2 ⟨htype.mono h₁, hy.mono h₁, hfields⟩)

theorem secure_anonymousDefinitionSymbol (hctx : Within b ctx) (hty : Within b ty)
    (record : Symbol) (package : PackageId) (span : Span) :
    Secure b (anonymousDefinitionSymbol ctx ty record package span) := by
  unfold anonymousDefinitionSymbol
  refine (secure_addSymbol within_typeDefinitionKind (within_declaration.2
    ⟨within_some.2 hty, within_some.2 (within_context.1 hctx).2⟩)).bind fun z b₁ h₁ hz => ?_
  refine (secure_openScope hz).bind fun _ b₂ h₂ _ => ?_
  refine (secure_define (hz.mono h₂) record.name (hz.mono h₂)).bind fun _ b₃ h₃ _ => ?_
  exact secure_pure ((hz.mono h₂).mono h₃)

/-- **An anonymous record is registered**: it is linked to its definition's symbol as soon as that
is there. -/
theorem secure_registerAnonymousRecord (hctx : Within b ctx) (hty : Within b ty) (span : Span) :
    Secure b (registerAnonymousRecord ctx ty span) := by
  unfold registerAnonymousRecord
  refine (reads_requireRecord hty).bind fun _ _ => (reads_symbolOf hty).bind fun z hz => ?_
  refine (reads_symbol hz).bind fun record _ => ?_
  refine (reads_symbol (within_context.1 hctx).2).bind fun outer _ => ?_
  refine (secure_anonymousDefinitionSymbol hctx hty record _ span).bind fun d b₁ h₁ hd => ?_
  refine (secure_openScope (hz.mono h₁)).bind fun _ b₂ h₂ _ => ?_
  have h₀₂ := Extent.le_trans h₁ h₂
  refine (secure_changeSymbol (hz.mono h₀₂) fun named hnamed => ?_).bind fun _ b₃ h₃ _ => ?_
  · obtain ⟨hdeclared, hid, hkind, hscope⟩ := within_symbol.1 hnamed
    refine within_symbol.2
      ⟨within_declaration.2 ⟨?_, (within_declaration.1 hdeclared).2⟩, hid, hkind, hscope⟩
    exact within_some.2 (hty.mono h₀₂)
  have h₁₃ := Extent.le_trans h₂ h₃
  have h₀₃ := Extent.le_trans h₁ h₁₃
  refine (secure_changeTypeLinks (hz.mono h₀₃) _ fun info hinfo => ?_).bind fun _ b₄ h₄ _ => ?_
  · exact within_typeLinks.2 ⟨(within_typeLinks.1 hinfo).1, within_some.2 (hd.mono h₁₃)⟩
  have h₀₄ := Extent.le_trans h₀₃ h₄
  have hty₄ := hty.mono h₀₄
  refine (secure_buildFields (by simp) (hctx.mono h₀₄) (within_population.2 ⟨hty₄, hty₄⟩)
    (within_structureNode.2 ⟨within_some.2 hty₄, within_some.2 (hz.mono h₀₄), within_nil,
      within_nil, within_none⟩)).bind fun node b₅ h₅ hnode => ?_
  refine (secure_fieldDeclarations (hty₄.mono h₅) _).bind fun fields b₆ h₆ hfields => ?_
  have h₀₆ := Extent.le_trans h₀₄ (Extent.le_trans h₅ h₆)
  refine secure_of_builtin fun hbuiltin => ?_
  refine (secure_changeType (hty.mono h₀₆) fun e he => ?_).bind fun _ b₇ h₇ _ => ?_
  · refine within_typeEntry.2 ⟨?_, (within_typeEntry.1 he).2⟩
    exact (within_typeEntry.1 he).1.withRest (within_builtin hbuiltin (by decide))
  have h₅₇ := Extent.le_trans h₆ h₇
  obtain ⟨htype, hsymbol, -, hreferences, hinitializer⟩ := within_structureNode.1 (hnode.mono h₅₇)
  have hd₇ := hd.mono (Extent.le_trans h₁₃ (Extent.le_trans h₄ (Extent.le_trans h₅ h₅₇)))
  refine secure_registerType (within_typeDefinition.2
    ⟨within_some.2 (hty.mono (Extent.le_trans h₀₆ h₇)), hd₇, ?_⟩)
  exact within_structureNode.2 ⟨htype, hsymbol, hfields.mono h₇, hreferences, hinitializer⟩

end Definitions

/-! ## Readonly variants -/

section Clones

variable {clone : Cloner} {stamp : Stamp} {source base : TypeId}

/-- A readonly type is added after another one. -/
theorem secure_addReadonly {type : Ty} (hsource : Within b source) (htype : Within b type) :
    Secure b (addReadonly source type) := by
  unfold addReadonly
  exact (reads_entry hsource).bind fun e _ =>
    secure_addType (within_typeEntry.2 ⟨htype, within_none⟩)

theorem secure_cloneName (stamp : Stamp) (named : Symbol) : Secure b (cloneName stamp named) := by
  unfold cloneName
  split
  · exact secure_nextName _ _
  · exact secure_pure (within_string _)

theorem within_shell (blueprint : Blueprint) : Within b blueprint.shell := by
  unfold Blueprint.shell
  split
  · exact within_recordType.2 ⟨within_emptyMap, within_none⟩
  · exact within_emptyMap

theorem secure_openClone (hstamp : Within b stamp) (hsource : Within b source) (named : Symbol)
    (blueprint : Blueprint) : Secure b (openClone stamp source named blueprint) := by
  unfold openClone
  refine (secure_cloneName stamp named).bind fun name b₁ h₁ _ => ?_
  refine (secure_addReadonly (hsource.mono h₁) (within_shell blueprint)).bind
    fun made b₂ h₂ hmade => ?_
  refine (secure_addSymbol (within_typeLinks.2 ⟨within_none, within_none⟩)
    (within_declaration.2 ⟨within_some.2 hmade, within_some.2 ?_⟩)).bind fun z b₃ h₃ hz => ?_
  · exact (hstamp.mono h₁).mono h₂
  refine (secure_openScope hz).bind fun _ b₄ h₄ _ => ?_
  have hmade₄ := (hmade.mono h₃).mono h₄
  refine (secure_changeType hmade₄ fun e he => ?_).bind fun _ b₅ h₅ _ => ?_
  · exact within_typeEntry.2 ⟨(within_typeEntry.1 he).1, within_some.2 (hz.mono h₄)⟩
  exact secure_pure (within_prod.2 ⟨hmade₄.mono h₅, (hz.mono h₄).mono h₅⟩)

section Parts

variable (hclone : SecureCloner b clone)
include hclone

theorem secure_fillClone {blueprint : Blueprint} (hctx : Within b ctx) (hstamp : Within b stamp)
    (hsource : Within b source) (hrest : Within b blueprint.rest) (hty : Within b ty)
    (hy : Within b y) : Secure b (fillClone ctx clone stamp source blueprint ty y) := by
  unfold fillClone
  refine (secure_buildFields (by simpa using hclone) hctx (within_population.2 ⟨hty, hsource⟩)
    (within_structureNode.2 ⟨within_some.2 hty, within_some.2 hy, within_nil, within_nil,
      within_none⟩)).bind fun node b₁ h₁ hnode => ?_
  have hdone : ∀ {b'}, b₁ ≤ b' → Secure b' (do
      let fields ← fieldDeclarations ty stamp.package
      return { node with fields }) := by
    intro b' h
    refine (secure_fieldDeclarations ((hty.mono h₁).mono h) _).bind fun fields b₂ h₂ hfields => ?_
    obtain ⟨htype, hsymbol, -, hreferences, hinitializer⟩ :=
      within_structureNode.1 (hnode.mono (Extent.le_trans h h₂))
    exact secure_pure (within_structureNode.2 ⟨htype, hsymbol, hfields, hreferences, hinitializer⟩)
  split
  · rename_i rest hr
    have hin : Within b rest := within_some.1 (hr ▸ hrest)
    refine (hclone b₁ h₁ stamp rest (hstamp.mono h₁) (hin.mono h₁)).bind
      fun rest' b₂ h₂ hrest' => ?_
    refine (secure_changeType ((hty.mono h₁).mono h₂) fun e he => ?_).bind fun _ b₃ h₃ _ =>
      hdone (Extent.le_trans h₂ h₃)
    exact within_typeEntry.2 ⟨(within_typeEntry.1 he).1.withRest hrest', (within_typeEntry.1 he).2⟩
  · exact (secure_pure (within_unit ())).bind fun _ b₂ h₂ _ => hdone h₂

/-- **A structure is cloned**: its clone is there before it is marked as unfinished. -/
theorem secure_makeClone {blueprint : Blueprint} (hctx : Within b ctx) (hstamp : Within b stamp)
    (hsource : Within b source) (hrest : Within b blueprint.rest) :
    Secure b (makeClone ctx clone stamp source blueprint) := by
  unfold makeClone
  refine (reads_symbolOf hsource).bind fun z hz => (reads_symbol hz).bind fun named _ => ?_
  refine (secure_openClone hstamp hsource named blueprint).bind fun ⟨made, z⟩ b₁ h₁ hmade => ?_
  obtain ⟨hmade, hz⟩ := within_prod.1 hmade
  refine (Secure.whilePending (secure_fillClone (hclone.mono h₁) (hctx.mono h₁) (hstamp.mono h₁)
    (hsource.mono h₁) (hrest.mono h₁) hmade hz) (hsource.mono h₁) hmade).bind
    fun node b₂ h₂ hnode => ?_
  refine (secure_attachInitializer ((hctx.mono h₁).mono h₂) ?_).bind
    fun ⟨_, node⟩ b₃ h₃ hnode => ?_
  · exact within_structureNode.2 (within_structureNode.1 hnode)
  have h₁₃ := Extent.le_trans h₂ h₃
  refine (secure_registerDefinition (hmade.mono h₁₃) (hz.mono h₁₃) ?_).bind fun _ b₄ h₄ _ => ?_
  · unfold Blueprint.node
    split <;> exact (within_prod.1 hnode).2
  · exact secure_pure (hmade.mono (Extent.le_trans h₁₃ h₄))

omit hclone in
theorem reads_variantAtHand? (hty : Within b ty) (hbase : Within b base) :
    Reads b (variantAtHand? ty base) := by
  unfold variantAtHand? knownVariant?
  refine (reads_reading (α := Option TypeId) fun s hs hclosed => ?_).bind_reads fun o ho => ?_
  · refine within_option.2 fun variant hvariant => ?_
    rw [Option.mem_def, Option.orElse_eq_orElse, Option.orElse_eq_or,
      Option.or_eq_some_iff] at hvariant
    rcases hvariant with hp | ⟨-, hm⟩
    · exact hs ▸ hclosed.pending.get? hp
    · exact hs ▸ hclosed.memo.get? hm
  split
  · exact reads_pure ho
  · refine (reads_isReadonly hbase).bind_reads fun r _ => reads_pure ?_
    split
    · exact within_some.2 hty
    · exact within_none

theorem secure_makeVariant? (hctx : Within b ctx) (hstamp : Within b stamp) (ty : TypeId)
    (hbase : Within b base) : Secure b (makeVariant? ctx clone stamp ty base) := by
  have hsome : ∀ b' (v : TypeId), Within b' v → Within b' (some v) := fun _ _ => within_some.2
  unfold makeVariant?
  refine (reads_entry hbase).bind fun e he => ?_
  have hty := (within_typeEntry.1 he).1
  split
  · exact secure_fail _
  · exact secure_fail _
  · rename_i r hr
    have hin : Within b (Ty.record r) := hr ▸ hty
    exact (secure_makeClone hclone hctx hstamp hbase (within_recordType.1 hin).2).map hsome
  · exact (secure_makeClone hclone hctx hstamp hbase within_none).map hsome
  · rename_i constraint hconstraint
    have hin : Within b (Ty.map constraint) := hconstraint ▸ hty
    refine (hclone b b.le_refl stamp constraint hstamp hin).bind fun v b₁ h₁ hv => ?_
    exact (secure_addReadonly (hbase.mono h₁) hv).map hsome
  · rename_i members hmembers
    have hin : Within b (Ty.union members) := hmembers ▸ hty
    refine (secure_mapM fun m hm b' h => ?_).bind fun vs b₁ h₁ hvs => ?_
    · exact hclone b' h stamp m (hstamp.mono h) ((within_list.1 hin m hm).mono h)
    · exact (secure_addReadonly (hbase.mono h₁) hvs).map hsome
  · exact (secure_addReadonly hbase within_any).map hsome
  · exact (secure_addReadonly hbase within_anydata).map hsome
  · exact secure_pure within_none

/-- One step of the search is secure if the search below it is. -/
theorem secure_cloneStep (hctx : Within b ctx) (hstamp : Within b stamp) (hty : Within b ty) :
    Secure b (cloneStep ctx clone stamp ty) := by
  unfold cloneStep
  refine (reads_variantAtHand? hty hty).bind fun o ho => ?_
  split
  · exact secure_pure (within_some.1 ho)
  refine (reads_implied hty).bind fun base hbase => ?_
  refine (reads_variantAtHand? hty hbase).bind fun o ho => ?_
  split
  · exact secure_pure (within_some.1 ho)
  refine (secure_makeVariant? hclone hctx hstamp ty hbase).bind fun o b₁ h₁ ho => ?_
  split
  · exact secure_pure (hty.mono h₁)
  · have hv := within_some.1 ho
    refine (secure_remember (hbase.mono h₁) hv).bind fun _ b₂ h₂ _ => ?_
    refine (secure_remember ((hty.mono h₁).mono h₂) (hv.mono h₂)).bind fun _ b₃ h₃ _ => ?_
    exact secure_pure ((hv.mono h₂).mono h₃)

end Parts

/-- The search is secure at every depth. -/
theorem secureCloner_readonlyWithin (hctx : Within b ctx) (fuel : Nat) :
    SecureCloner b (readonlyWithin ctx fuel) := by
  induction fuel with
  | zero => exact fun _ _ _ _ _ _ => secure_unending
  | succ fuel ih =>
    exact fun b' h stamp ty hstamp hty =>
      secure_cloneStep (ih.mono h) (hctx.mono h) hstamp hty

/-- **The search for a readonly variant never comes to the end of a table**, and leaves a closed
session. -/
theorem secureCloner_readonlyVariant (hctx : Within b ctx) :
    SecureCloner b (readonlyVariant ctx) := by
  intro b' h stamp ty hstamp hty s hs hclosed
  have hends := secureCloner_readonlyWithin hctx (cloneDepth s.types.entries.size) b' h stamp ty
    hstamp hty s hs hclosed
  rw [ends_iff] at hends ⊢
  exact hends

end Clones

end Synth

end StructuralTypes
