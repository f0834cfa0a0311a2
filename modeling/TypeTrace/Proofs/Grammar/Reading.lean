import TypeTrace.Grammar.Document
import TypeTrace.Proofs.Grammar.Shape

/-! # The grammar reads documents in shape

A reader gives a property if whatever it reads has it. The property passes through the steps that
the grammar is written with, so each part of the grammar is seen to give nodes of its layer, and
every document that is read from a text has the shape. What a reader leaves is still cut from the
text, so the next reader may count on its tokens as well.
-/

namespace TypeTrace

/-! ## What readers give -/

namespace Reader

variable {α β : Type} {P : α → Prop} {Q : β → Prop}

/-- From tokens of a text, whatever the reader reads has the property, and tokens of a text are left
to the next reader. -/
def Gives (reader : Reader α) (P : α → Prop) : Prop :=
  ∀ stream a rest, stream.Lexical → reader stream = .ok (a, rest) → P a ∧ rest.Lexical

theorem Gives.pure {a : α} (h : P a) : Gives (Pure.pure a) P := by
  intro stream b rest hstream heq
  cases heq
  exact ⟨h, hstream⟩

theorem Gives.bind {reader : Reader α} {next : α → Reader β} (h : reader.Gives P)
    (hnext : ∀ a, P a → (next a).Gives Q) : Gives (reader >>= next) Q := by
  intro stream b rest hstream heq
  obtain ⟨⟨a, behind⟩, hread, heq⟩ := exists_of_bind_eq_ok heq
  obtain ⟨ha, hbehind⟩ := h stream a behind hstream hread
  exact hnext a ha behind b rest hbehind heq

theorem Gives.after {reader : Reader α} {next : α → Reader β} (h : reader.Gives P)
    (hnext : ∀ a, (next a).Gives Q) : Gives (reader >>= next) Q :=
  h.bind fun a _ => hnext a

theorem Gives.map {reader : Reader α} {f : α → β} (h : reader.Gives P)
    (hf : ∀ a, P a → Q (f a)) : Gives (f <$> reader) Q := by
  rw [map_eq_pure_bind]
  exact h.bind fun a ha => Gives.pure (hf a ha)

theorem Gives.failAt (token : Token) (cause : SyntaxCause) : Gives (failAt token cause) P := by
  intro _ _ _ _ heq
  cases heq

theorem Gives.ite {condition : Prop} [Decidable condition] {yes no : Reader α}
    (hyes : yes.Gives P) (hno : no.Gives P) : Gives (if condition then yes else no) P := by
  split
  · exact hyes
  · exact hno

theorem Gives.guard {condition : Prop} [Decidable condition] {token : Token} {cause : SyntaxCause}
    {next : Unit → Reader β} (hnext : ∀ u, (next u).Gives Q) :
    Gives (if condition then Reader.failAt token cause >>= next else next ()) Q :=
  Gives.ite ((Gives.failAt (P := fun _ => True) token cause).after hnext) (hnext ())

theorem gives_peek : peek.Gives Token.Lexical := by
  intro stream token rest hstream heq
  change (stream.current >>= fun token => Except.ok (token, stream)) = .ok (token, rest) at heq
  obtain ⟨found, hfound, heq⟩ := exists_of_bind_eq_ok heq
  cases heq
  exact ⟨hstream.current hfound, hstream⟩

theorem gives_peekSecond : peekSecond.Gives Token.Lexical := by
  intro stream token rest hstream heq
  change (stream.rest.current >>= fun token => Except.ok (token, stream)) = .ok (token, rest)
    at heq
  obtain ⟨found, hfound, heq⟩ := exists_of_bind_eq_ok heq
  cases heq
  exact ⟨hstream.rest.current hfound, hstream⟩

theorem gives_advance : advance.Gives fun _ => True := by
  intro stream u rest hstream heq
  change ((stream.rest.current >>= fun token => Except.ok (token, stream)) >>=
    fun _ => Except.ok ((), stream.rest)) = .ok (u, rest) at heq
  obtain ⟨found, hfound, heq⟩ := exists_of_bind_eq_ok heq
  cases heq
  exact ⟨trivial, hstream.rest⟩

theorem Gives.unexpected : Gives unexpected P := gives_peek.after fun _ => Gives.failAt _ _

theorem gives_sees (kind : TokenKind) : (sees kind).Gives fun _ => True :=
  gives_peek.after fun _ => Gives.pure trivial

theorem gives_expect (kind : TokenKind) :
    (expect kind).Gives fun token => token.Lexical ∧ token.kind = kind := by
  refine gives_peek.bind fun token htoken => ?_
  split
  · next hkind => exact gives_advance.after fun _ => Gives.pure ⟨htoken, hkind⟩
  · exact Gives.failAt _ _

theorem gives_accept (kind : TokenKind) : (accept kind).Gives fun _ => True :=
  (gives_sees kind).after fun _ =>
    Gives.ite (gives_advance.after fun _ => Gives.pure trivial) (Gives.pure trivial)

theorem gives_expectWord (word : String) : (expectWord word).Gives fun _ => True :=
  gives_peek.after fun _ => Gives.ite gives_advance (Gives.failAt _ _)

theorem gives_acceptWord (word : String) : (acceptWord word).Gives fun _ => True :=
  gives_peek.after fun _ =>
    Gives.ite (gives_advance.after fun _ => Gives.pure trivial) (Gives.pure trivial)

theorem Gives.someUntil {close : TokenKind} {item : Reader α} (h : item.Gives P) {read : List α}
    (hread : ∀ a ∈ read, P a) (fuel : Nat) :
    (someUntil close item read fuel).Gives fun as => ∀ a ∈ as, P a := by
  induction fuel generalizing read with
  | zero => exact Gives.unexpected
  | succ fuel ih =>
      refine h.bind fun a ha => (gives_accept close).after fun closed => ?_
      have hall : ∀ b ∈ a :: read, P b := List.forall_mem_cons.mpr ⟨ha, hread⟩
      refine Gives.ite (Gives.pure fun b hb => hall b (List.mem_reverse.mp hb)) (ih hall)

theorem Gives.parted {mark : TokenKind} {item : Reader α} (h : item.Gives P) {read : List α}
    (hread : ∀ a ∈ read, P a) (fuel : Nat) :
    (parted mark item read fuel).Gives fun as => ∀ a ∈ as, P a := by
  induction fuel generalizing read with
  | zero => exact Gives.unexpected
  | succ fuel ih =>
      refine h.bind fun a ha => (gives_accept mark).after fun more => ?_
      have hall : ∀ b ∈ a :: read, P b := List.forall_mem_cons.mpr ⟨ha, hread⟩
      refine Gives.ite (ih hall) (Gives.pure fun b hb => hall b (List.mem_reverse.mp hb))

theorem Gives.repeated {mark : TokenKind} {item : Reader α} (h : item.Gives P) {read : List α}
    (hread : ∀ a ∈ read, P a) (fuel : Nat) :
    (Reader.repeated mark item read fuel).Gives fun as => ∀ a ∈ as, P a := by
  induction fuel generalizing read with
  | zero => exact Gives.pure fun b hb => hread b (List.mem_reverse.mp hb)
  | succ fuel ih =>
      refine (gives_sees mark).after fun more => Gives.ite ?_ ?_
      · exact h.bind fun a ha => ih (List.forall_mem_cons.mpr ⟨ha, hread⟩)
      · exact Gives.pure fun b hb => hread b (List.mem_reverse.mp hb)

theorem Gives.nonempty {opening close : TokenKind} {item : Reader α} (h : item.Gives P)
    (fuel : Nat) : (nonempty opening item close fuel).Gives fun as => ∀ a ∈ as, P a :=
  (gives_expect opening).after fun _ => h.someUntil (List.forall_mem_nil _) fuel

theorem Gives.optional {opening close : TokenKind} {item : Reader α} (h : item.Gives P)
    (fuel : Nat) : (optional opening item close fuel).Gives fun as => ∀ a ∈ as, P a :=
  (gives_accept opening).after fun _ =>
    Gives.ite (h.someUntil (List.forall_mem_nil _) fuel) (Gives.pure (List.forall_mem_nil _))

theorem Gives.any {opening close : TokenKind} {item : Reader α} (h : item.Gives P)
    (fuel : Nat) : (any opening item close fuel).Gives fun as => ∀ a ∈ as, P a :=
  (gives_expect opening).after fun _ => (gives_accept close).after fun _ =>
    Gives.ite (Gives.pure (List.forall_mem_nil _)) (h.someUntil (List.forall_mem_nil _) fuel)

theorem Gives.separated {mark : TokenKind} {item : Reader α} (h : item.Gives P)
    (fuel : Nat) : (separated mark item fuel).Gives fun as => ∀ a ∈ as, P a :=
  (gives_accept mark).after fun _ => h.parted (List.forall_mem_nil _) fuel

end Reader

namespace Grammar

open Reader Forest

/-! ## Names, values, arguments, directives and types -/

/-- The reader gives a node of at most a layer, in shape. -/
abbrev Shapes (reader : Reader Node) (layer : Nat) : Prop := reader.Gives (Node.WellFormed layer)

abbrev ShapesAll (reader : Reader (List Node)) (layer : Nat) : Prop :=
  reader.Gives fun nodes => ∀ node ∈ nodes, node.WellFormed layer

abbrev ShapesAny (reader : Reader (Option Node)) (layer : Nat) : Prop :=
  reader.Gives fun node => ∀ n ∈ node, n.WellFormed layer

theorem shapes_name : Shapes name 0 := by
  refine (gives_expect .name).bind fun token htoken => Gives.pure ?_
  have hlexical : (Node.leaf .name token (.text token.value)).head.Lexical := by
    refine ⟨?_, fun _ => ⟨_, rfl, htoken.1.name htoken.2⟩⟩
    simp only [Node.leaf, Option.mem_def, Option.some.injEq, forall_eq']
    exact htoken.1.position
  exact ⟨Nat.le_refl _, trivial, fun h => (by cases h), hlexical⟩

theorem shapes_variableUse : Shapes variableUse 2 := by
  refine (gives_expect .dollar).bind fun start hstart => shapes_name.bind fun n hn =>
    Gives.pure ?_
  exact Node.wellFormed_mk .variable hstart.1.position (wellFormed_single hn (by decide))
    (by decide)

theorem shapes_variableInConstant : Shapes variableInConstant 2 :=
  (gives_expect .dollar).after fun _ => gives_peek.after fun _ =>
    Gives.ite (Gives.failAt _ _) (Gives.failAt _ _)

theorem shapes_objectField {reader : Reader Node} (h : Shapes reader 2) :
    Shapes (value.objectField reader) 2 := by
  refine gives_peek.bind fun start hstart => shapes_name.bind fun n hn =>
    (gives_expect .colon).after fun _ => h.bind fun v hv =>
      Gives.pure (Node.wellFormed_mk .objectField hstart.position ?_ (by decide))
  exact wellFormed_append.mpr
    ⟨wellFormed_single hn (by decide), wellFormed_single hv (by decide)⟩

theorem shapes_value (constant : Bool) (fuel : Nat) : Shapes (value constant fuel) 2 := by
  induction fuel with
  | zero => exact Gives.unexpected
  | succ fuel ih =>
      refine gives_peek.bind fun start hstart => ?_
      have hleaf (kind : Kind) (datum : Datum)
          (hkind : kind.layer ≤ 2 ∧ kind ∉ [.fragmentDefinition, .name]) :
          Gives (pure (Node.leaf kind start datum)) (Node.WellFormed 2) :=
        Gives.pure (Node.wellFormed_mk kind hstart.position trivial hkind)
      split
      · refine (ih.any fuel).bind fun values hvalues => Gives.pure ?_
        exact Node.wellFormed_mk .listValue hstart.position (wellFormed_ofList hvalues (by decide))
          (by decide)
      · refine ((shapes_objectField ih).any fuel).bind fun fields hfields => Gives.pure ?_
        exact Node.wellFormed_mk .objectValue hstart.position
          (wellFormed_ofList hfields (by decide)) (by decide)
      · exact gives_advance.after fun _ => hleaf .intValue _ (by decide)
      · exact gives_advance.after fun _ => hleaf .floatValue _ (by decide)
      · exact gives_advance.after fun _ => hleaf .stringValue _ (by decide)
      · exact gives_advance.after fun _ => hleaf .stringValue _ (by decide)
      · refine gives_advance.after fun _ => ?_
        split
        · exact hleaf .booleanValue _ (by decide)
        · exact hleaf .booleanValue _ (by decide)
        · exact hleaf .nullValue _ (by decide)
        · exact hleaf .enumValue _ (by decide)
      · exact Gives.ite shapes_variableInConstant shapes_variableUse
      · exact Gives.unexpected

theorem shapes_argument (constant : Bool) (fuel : Nat) : Shapes (argument constant fuel) 3 := by
  refine gives_peek.bind fun start hstart => shapes_name.bind fun n hn =>
    (gives_expect .colon).after fun _ => (shapes_value constant fuel).bind fun v hv =>
      Gives.pure (Node.wellFormed_mk .argument hstart.position ?_ (by decide))
  exact wellFormed_append.mpr
    ⟨wellFormed_single hn (by decide), wellFormed_single hv (by decide)⟩

theorem shapes_arguments (constant : Bool) (fuel : Nat) :
    ShapesAll (arguments constant fuel) 3 :=
  (shapes_argument constant fuel).optional fuel

theorem shapes_directive (constant : Bool) (fuel : Nat) : Shapes (directive constant fuel) 4 := by
  refine (gives_expect .at).bind fun start hstart => shapes_name.bind fun n hn =>
    (shapes_arguments constant fuel).bind fun args hargs =>
      Gives.pure (Node.wellFormed_mk .directive hstart.1.position ?_ (by decide))
  exact wellFormed_append.mpr
    ⟨wellFormed_single hn (by decide), wellFormed_ofList hargs (by decide)⟩

theorem shapes_directives (constant : Bool) (fuel : Nat) :
    ShapesAll (directives constant fuel) 4 :=
  (shapes_directive constant fuel).repeated (List.forall_mem_nil _) fuel

theorem shapes_namedType : Shapes namedType 1 := by
  refine gives_peek.bind fun start hstart => shapes_name.bind fun n hn => Gives.pure ?_
  exact Node.wellFormed_mk .namedType hstart.position (wellFormed_single hn (by decide)) (by decide)

theorem shapes_typeReference (fuel : Nat) : Shapes (typeReference fuel) 1 := by
  induction fuel with
  | zero => exact Gives.unexpected
  | succ fuel ih =>
      refine gives_peek.bind fun start hstart => (gives_accept .bracketL).after fun listed => ?_
      extract_lets marked
      have hmarked (inner : Node) (hinner : inner.WellFormed 1) : Shapes (marked inner) 1 := by
        refine (gives_accept .bang).after fun bang => Gives.ite (Gives.pure ?_) (Gives.pure hinner)
        exact Node.wellFormed_mk .nonNullType hstart.position (wellFormed_single hinner (by decide))
          (by decide)
      refine Gives.ite ?_ (shapes_namedType.bind hmarked)
      refine ih.bind fun element helement => (gives_expect .bracketR).after fun _ => hmarked _ ?_
      exact Node.wellFormed_mk .listType hstart.position (wellFormed_single helement (by decide))
        (by decide)

theorem shapes_description : ShapesAny description 2 := by
  refine gives_peek.bind fun token htoken => Gives.ite (gives_advance.after fun _ => Gives.pure ?_)
    (Gives.pure (by simp))
  simp only [Option.mem_def, Option.some.injEq, forall_eq']
  exact Node.wellFormed_mk .stringValue htoken.position trivial (by decide)

/-! ## Operations and fragments -/

theorem shapes_fragmentName : Shapes fragmentName 0 :=
  gives_peek.after fun _ => Gives.ite Gives.unexpected shapes_name

theorem shapes_field {reader : Reader Node} (h : Shapes reader 5) (fuel : Nat) :
    Shapes (field reader fuel) 5 := by
  refine gives_peek.bind fun start hstart => shapes_name.bind fun first hfirst =>
    (gives_accept .colon).after fun aliased => ?_
  extract_lets named
  have hnamed (names : Option Node × Node) (halias : ∀ n ∈ names.1, n.WellFormed 0)
      (hname : names.2.WellFormed 0) : Shapes (named names) 5 := by
    refine (shapes_arguments false fuel).bind fun args hargs =>
      (shapes_directives false fuel).bind fun dirs hdirs =>
        (gives_sees .braceL).after fun opened => ?_
    extract_lets closed
    have hclosed (below : Option Node) (hbelow : ∀ n ∈ below, n.WellFormed 5) :
        Shapes (closed below) 5 := by
      refine Gives.pure (Node.wellFormed_mk .field hstart.position ?_ (by decide))
      simp only [wellFormed_append, and_assoc]
      exact ⟨wellFormed_ofOption halias (by decide), wellFormed_single hname (by decide),
        wellFormed_ofList hargs (by decide), wellFormed_ofList hdirs (by decide),
        wellFormed_ofOption hbelow (by decide)⟩
    exact Gives.ite ((h.map (by simp)).bind hclosed) (hclosed none (by simp))
  refine Gives.ite (shapes_name.bind fun second hsecond => ?_) ?_
  · exact hnamed (some first, second) (by simpa using hfirst) hsecond
  · exact hnamed (none, first) (by simp) hfirst

theorem shapes_fragment {reader : Reader Node} (h : Shapes reader 5) (fuel : Nat) :
    Shapes (fragment reader fuel) 5 := by
  refine (gives_expect .spread).bind fun start hstart =>
    (gives_acceptWord "on").after fun conditioned => ?_
  extract_lets inline
  have hinline (condition : Option Node) (hcondition : ∀ n ∈ condition, n.WellFormed 1) :
      Shapes (inline condition) 5 := by
    refine (shapes_directives false fuel).bind fun dirs hdirs => h.bind fun below hbelow =>
      Gives.pure (Node.wellFormed_mk .inlineFragment hstart.1.position ?_ (by decide))
    simp only [wellFormed_append, and_assoc]
    exact ⟨wellFormed_ofOption hcondition (by decide), wellFormed_ofList hdirs (by decide),
      wellFormed_single hbelow (by decide)⟩
  refine (gives_sees .name).after fun named => Gives.ite ?_ ?_
  · refine shapes_fragmentName.bind fun n hn =>
      (shapes_directives false fuel).bind fun dirs hdirs =>
        Gives.pure (Node.wellFormed_mk .fragmentSpread hstart.1.position
          (wellFormed_append.mpr ?_) (by decide))
    exact ⟨wellFormed_single hn (by decide), wellFormed_ofList hdirs (by decide)⟩
  · exact Gives.ite ((shapes_namedType.map (by simp)).bind hinline) (hinline none (by simp))

theorem shapes_selectionSet (fuel : Nat) : Shapes (selectionSet fuel) 5 := by
  induction fuel with
  | zero => exact Gives.unexpected
  | succ fuel ih =>
      have hselection : Shapes (do
          if ← sees .spread then fragment (selectionSet fuel) fuel
          else field (selectionSet fuel) fuel) 5 :=
        (gives_sees .spread).after fun _ =>
          Gives.ite (shapes_fragment ih fuel) (shapes_field ih fuel)
      refine gives_peek.bind fun start hstart =>
        (hselection.nonempty fuel).bind fun selections hall => Gives.pure ?_
      exact Node.wellFormed_mk .selectionSet hstart.position (wellFormed_ofList hall (by decide))
        (by decide)

theorem shapes_variableDefinition (fuel : Nat) : Shapes (variableDefinition fuel) 5 := by
  refine gives_peek.bind fun start hstart => shapes_description.bind fun about habout =>
    shapes_variableUse.bind fun v hv => (gives_expect .colon).after fun _ =>
      (shapes_typeReference fuel).bind fun type htype =>
        (gives_accept .equals).after fun defaulted => ?_
  extract_lets closed
  have hclosed (default : Option Node) (hdefault : ∀ n ∈ default, n.WellFormed 2) :
      Shapes (closed default) 5 := by
    refine (shapes_directives true fuel).bind fun dirs hdirs =>
      Gives.pure (Node.wellFormed_mk .variableDefinition hstart.position ?_ (by decide))
    simp only [wellFormed_append, and_assoc]
    exact ⟨wellFormed_ofOption habout (by decide), wellFormed_single hv (by decide),
      wellFormed_single htype (by decide), wellFormed_ofOption hdefault (by decide),
      wellFormed_ofList hdirs (by decide)⟩
  exact Gives.ite (((shapes_value true fuel).map (by simp)).bind hclosed) (hclosed none (by simp))

theorem gives_operationWord : operationWord.Gives fun _ => True := by
  refine (gives_expect .name).after fun token => ?_
  split
  · exact Gives.pure trivial
  · exact Gives.failAt _ _

theorem shapes_operationDefinition (fuel : Nat) : Shapes (operationDefinition fuel) 5 := by
  refine gives_peek.bind fun start hstart => Gives.ite ?_ ?_
  · refine (shapes_selectionSet fuel).bind fun below hbelow => Gives.pure ?_
    exact Node.wellFormed_mk .operationDefinition hstart.position
      (wellFormed_single hbelow (by decide)) (by decide)
  · refine shapes_description.bind fun about habout => gives_operationWord.after fun operation =>
      (gives_sees .name).after fun named => ?_
    extract_lets closed
    have hclosed (n : Option Node) (hname : ∀ m ∈ n, m.WellFormed 0) :
        Shapes (closed n) 5 := by
      refine ((shapes_variableDefinition fuel).optional fuel).bind fun vars hvars =>
        (shapes_directives false fuel).bind fun dirs hdirs =>
          (shapes_selectionSet fuel).bind fun below hbelow =>
            Gives.pure (Node.wellFormed_mk .operationDefinition hstart.position ?_ (by decide))
      simp only [wellFormed_append, and_assoc]
      exact ⟨wellFormed_ofOption habout (by decide), wellFormed_ofOption hname (by decide),
        wellFormed_ofList hvars (by decide), wellFormed_ofList hdirs (by decide),
        wellFormed_single hbelow (by decide)⟩
    exact Gives.ite ((shapes_name.map (by simp)).bind hclosed) (hclosed none (by simp))

theorem shapes_fragmentDefinition (fuel : Nat) : Shapes (fragmentDefinition fuel) 5 := by
  refine gives_peek.bind fun start hstart => shapes_description.bind fun about habout =>
    (gives_expectWord _).after fun _ => shapes_fragmentName.bind fun n hn =>
    (gives_expectWord _).after fun _ =>
      shapes_namedType.bind fun condition hcondition =>
        (shapes_directives false fuel).bind fun dirs hdirs =>
          (shapes_selectionSet fuel).bind fun below hbelow =>
            Gives.pure ⟨Kind.layer_le _, ?_, ?_, ?_, fun h => (by cases h)⟩
  · change Forest.WellFormed 5 _
    simp only [Node.branch, wellFormed_append, and_assoc]
    exact ⟨wellFormed_ofOption habout (by decide), wellFormed_single hn (by decide),
      wellFormed_single hcondition (by decide), wellFormed_ofList hdirs (by decide),
      wellFormed_single hbelow (by decide)⟩
  · intro _
    have hfound : (Forest.ofList .typeCondition [condition]).find? .typeCondition =
        some condition := rfl
    simp [Node.child?, Node.branch, Forest.find?_append, hfound]
  · simp only [Node.branch, Option.mem_def, Option.some.injEq, forall_eq']
    exact hstart.position

/-! ## Type definitions -/

theorem shapes_implemented (fuel : Nat) : ShapesAll (implemented fuel) 1 :=
  (gives_acceptWord _).after fun _ => Gives.ite (shapes_namedType.separated fuel)
    (Gives.pure (List.forall_mem_nil _))

theorem shapes_inputValueDefinition (fuel : Nat) : Shapes (inputValueDefinition fuel) 5 := by
  refine gives_peek.bind fun start hstart => shapes_description.bind fun about habout =>
    shapes_name.bind fun n hn => (gives_expect .colon).after fun _ =>
      (shapes_typeReference fuel).bind fun type htype =>
        (gives_accept .equals).after fun defaulted => ?_
  extract_lets closed
  have hclosed (default : Option Node) (hdefault : ∀ n ∈ default, n.WellFormed 2) :
      Shapes (closed default) 5 := by
    refine (shapes_directives true fuel).bind fun dirs hdirs =>
      Gives.pure (Node.wellFormed_mk .inputValueDefinition hstart.position ?_ (by decide))
    simp only [wellFormed_append, and_assoc]
    exact ⟨wellFormed_ofOption habout (by decide), wellFormed_single hn (by decide),
      wellFormed_single htype (by decide), wellFormed_ofOption hdefault (by decide),
      wellFormed_ofList hdirs (by decide)⟩
  exact Gives.ite (((shapes_value true fuel).map (by simp)).bind hclosed) (hclosed none (by simp))

theorem shapes_argumentDefinitions (fuel : Nat) : ShapesAll (argumentDefinitions fuel) 5 :=
  (shapes_inputValueDefinition fuel).optional fuel

theorem shapes_fieldDefinition (fuel : Nat) : Shapes (fieldDefinition fuel) 5 := by
  refine gives_peek.bind fun start hstart => shapes_description.bind fun about habout =>
    shapes_name.bind fun n hn => (shapes_argumentDefinitions fuel).bind fun args hargs =>
      (gives_expect .colon).after fun _ => (shapes_typeReference fuel).bind fun type htype =>
        (shapes_directives true fuel).bind fun dirs hdirs =>
          Gives.pure (Node.wellFormed_mk .fieldDefinition hstart.position ?_ (by decide))
  simp only [wellFormed_append, and_assoc]
  exact ⟨wellFormed_ofOption habout (by decide), wellFormed_single hn (by decide),
    wellFormed_ofList hargs (by decide), wellFormed_single htype (by decide),
    wellFormed_ofList hdirs (by decide)⟩

theorem shapes_fieldDefinitions (fuel : Nat) : ShapesAll (fieldDefinitions fuel) 5 :=
  (shapes_fieldDefinition fuel).optional fuel

theorem shapes_inputFieldDefinitions (fuel : Nat) : ShapesAll (inputFieldDefinitions fuel) 5 :=
  (shapes_inputValueDefinition fuel).optional fuel

theorem shapes_unionMembers (fuel : Nat) : ShapesAll (unionMembers fuel) 1 :=
  (gives_accept .equals).after fun _ => Gives.ite (shapes_namedType.separated fuel)
    (Gives.pure (List.forall_mem_nil _))

theorem shapes_enumValueDefinition (fuel : Nat) : Shapes (enumValueDefinition fuel) 5 := by
  refine gives_peek.bind fun start hstart => shapes_description.bind fun about habout =>
    gives_peek.after fun token => Gives.guard fun _ => shapes_name.bind fun n hn =>
      (shapes_directives true fuel).bind fun dirs hdirs =>
        Gives.pure (Node.wellFormed_mk .enumValueDefinition hstart.position ?_ (by decide))
  simp only [wellFormed_append, and_assoc]
  exact ⟨wellFormed_ofOption habout (by decide), wellFormed_single hn (by decide),
    wellFormed_ofList hdirs (by decide)⟩

theorem shapes_enumValueDefinitions (fuel : Nat) : ShapesAll (enumValueDefinitions fuel) 5 :=
  (shapes_enumValueDefinition fuel).optional fuel

theorem shapes_operationTypeDefinition : Shapes operationTypeDefinition 5 := by
  refine gives_peek.bind fun start hstart => gives_operationWord.after fun _ =>
    (gives_expect .colon).after fun _ => shapes_namedType.bind fun type htype => Gives.pure ?_
  exact Node.wellFormed_mk .operationTypeDefinition hstart.position
    (wellFormed_single htype (by decide)) (by decide)

theorem shapes_directiveLocation : Shapes directiveLocation 0 :=
  gives_peek.after fun _ => shapes_name.bind fun _ hn =>
    Gives.ite (Gives.pure hn) (Gives.failAt _ _)

theorem gives_opening (word : String) :
    (opening word).Gives fun start => start.1.position.Valid ∧ start.2.WellFormed 5 := by
  refine gives_peek.bind fun start hstart => shapes_description.bind fun about habout =>
    (gives_expectWord word).after fun _ => Gives.pure ⟨hstart.position, ?_⟩
  exact wellFormed_ofOption habout (by decide)

theorem shapes_schemaDefinition (fuel : Nat) : Shapes (schemaDefinition fuel) 5 := by
  refine (gives_opening _).bind fun start hstart =>
    (shapes_directives true fuel).bind fun dirs hdirs =>
      (shapes_operationTypeDefinition.nonempty fuel).bind fun types htypes =>
        Gives.pure (Node.wellFormed_mk .schemaDefinition hstart.1 ?_ (by decide))
  simp only [wellFormed_append, and_assoc]
  exact ⟨hstart.2, wellFormed_ofList hdirs (by decide), wellFormed_ofList htypes (by decide)⟩

theorem shapes_scalarDefinition (fuel : Nat) : Shapes (scalarDefinition fuel) 5 := by
  refine (gives_opening _).bind fun start hstart => shapes_name.bind fun n hn =>
    (shapes_directives true fuel).bind fun dirs hdirs =>
      Gives.pure (Node.wellFormed_mk .scalarTypeDefinition hstart.1 ?_ (by decide))
  simp only [wellFormed_append, and_assoc]
  exact ⟨hstart.2, wellFormed_single hn (by decide), wellFormed_ofList hdirs (by decide)⟩

theorem shapes_fieldsDefinition {kind : Kind}
    (hkind : kind.innerLayer = 5 ∧ kind ∉ [.fragmentDefinition, .name]) (word : String)
    (fuel : Nat) : Shapes (fieldsDefinition kind word fuel) 5 := by
  refine (gives_opening _).bind fun start hstart => shapes_name.bind fun n hn =>
    (shapes_implemented fuel).bind fun interfaces hinterfaces =>
      (shapes_directives true fuel).bind fun dirs hdirs =>
        (shapes_fieldDefinitions fuel).bind fun fields hfields =>
          Gives.pure (Node.wellFormed_mk kind hstart.1 ?_ ⟨kind.layer_le, hkind.2⟩)
  rw [hkind.1]
  simp only [wellFormed_append, and_assoc]
  exact ⟨hstart.2, wellFormed_single hn (by decide), wellFormed_ofList hinterfaces (by decide),
    wellFormed_ofList hdirs (by decide), wellFormed_ofList hfields (by decide)⟩

theorem shapes_unionDefinition (fuel : Nat) : Shapes (unionDefinition fuel) 5 := by
  refine (gives_opening _).bind fun start hstart => shapes_name.bind fun n hn =>
    (shapes_directives true fuel).bind fun dirs hdirs =>
      (shapes_unionMembers fuel).bind fun members hmembers =>
        Gives.pure (Node.wellFormed_mk .unionTypeDefinition hstart.1 ?_ (by decide))
  simp only [wellFormed_append, and_assoc]
  exact ⟨hstart.2, wellFormed_single hn (by decide), wellFormed_ofList hdirs (by decide),
    wellFormed_ofList hmembers (by decide)⟩

theorem shapes_enumDefinition (fuel : Nat) : Shapes (enumDefinition fuel) 5 := by
  refine (gives_opening _).bind fun start hstart => shapes_name.bind fun n hn =>
    (shapes_directives true fuel).bind fun dirs hdirs =>
      (shapes_enumValueDefinitions fuel).bind fun values hvalues =>
        Gives.pure (Node.wellFormed_mk .enumTypeDefinition hstart.1 ?_ (by decide))
  simp only [wellFormed_append, and_assoc]
  exact ⟨hstart.2, wellFormed_single hn (by decide), wellFormed_ofList hdirs (by decide),
    wellFormed_ofList hvalues (by decide)⟩

theorem shapes_inputObjectDefinition (fuel : Nat) : Shapes (inputObjectDefinition fuel) 5 := by
  refine (gives_opening _).bind fun start hstart => shapes_name.bind fun n hn =>
    (shapes_directives true fuel).bind fun dirs hdirs =>
      (shapes_inputFieldDefinitions fuel).bind fun fields hfields =>
        Gives.pure (Node.wellFormed_mk .inputObjectTypeDefinition hstart.1 ?_ (by decide))
  simp only [wellFormed_append, and_assoc]
  exact ⟨hstart.2, wellFormed_single hn (by decide), wellFormed_ofList hdirs (by decide),
    wellFormed_ofList hfields (by decide)⟩

theorem shapes_directiveDefinition (fuel : Nat) : Shapes (directiveDefinition fuel) 5 := by
  refine (gives_opening _).bind fun start hstart => (gives_expect .at).after fun _ =>
    shapes_name.bind fun n hn =>
    (shapes_argumentDefinitions fuel).bind fun args hargs =>
      (gives_acceptWord _).after fun repeatable => (gives_expectWord _).after fun _ =>
        (shapes_directiveLocation.separated fuel).bind fun places hplaces =>
          Gives.pure (Node.wellFormed_mk .directiveDefinition hstart.1 ?_ (by decide))
  simp only [wellFormed_append, and_assoc]
  exact ⟨hstart.2, wellFormed_single hn (by decide), wellFormed_ofList hargs (by decide),
    wellFormed_ofList hplaces (by decide)⟩

theorem wellFormed_extended {parts : List (Role × List Node)} {named : Forest}
    (hnamed : named.WellFormed 5)
    (hparts : ∀ part ∈ parts, (ofList part.1 part.2).WellFormed 5) :
    (parts.foldl (fun children part => children ++ ofList part.1 part.2) named).WellFormed 5 := by
  induction parts generalizing named with
  | nil => exact hnamed
  | cons part parts ih =>
      have hpart := hparts part List.mem_cons_self
      exact ih (wellFormed_append.mpr ⟨hnamed, hpart⟩)
        fun other hother => hparts other (List.mem_cons_of_mem _ hother)

theorem shapes_extended {kind : Kind}
    (hkind : kind.innerLayer = 5 ∧ kind ∉ [.fragmentDefinition, .name]) {start : Token}
    (hstart : start.Lexical) {named : List Node} (hnamed : ∀ n ∈ named, n.WellFormed 0)
    {parts : List (Role × List Node)}
    (hparts : ∀ part ∈ parts, (ofList part.1 part.2).WellFormed 5) :
    Shapes (extended kind start named parts) 5 := by
  refine Gives.ite Gives.unexpected
    (Gives.pure (Node.wellFormed_mk kind hstart.position ?_ ⟨kind.layer_le, hkind.2⟩))
  rw [hkind.1]
  exact wellFormed_extended (wellFormed_ofList hnamed (by decide)) hparts

theorem shapes_fieldsExtension {kind : Kind}
    (hkind : kind.innerLayer = 5 ∧ kind ∉ [.fragmentDefinition, .name]) {start : Token}
    (hstart : start.Lexical) (fuel : Nat) :
    Shapes (extension.fieldsExtension fuel start kind) 5 := by
  refine gives_advance.after fun _ => gives_advance.after fun _ => shapes_name.bind fun n hn =>
    (shapes_implemented fuel).bind fun interfaces hinterfaces =>
      (shapes_directives true fuel).bind fun dirs hdirs =>
        (shapes_fieldDefinitions fuel).bind fun fields hfields =>
          shapes_extended hkind hstart (by simpa using hn) ?_
  simp only [List.forall_mem_cons]
  exact ⟨wellFormed_ofList hinterfaces (by decide), wellFormed_ofList hdirs (by decide),
    wellFormed_ofList hfields (by decide), List.forall_mem_nil _⟩

theorem shapes_extension (fuel : Nat) : Shapes (extension fuel) 5 := by
  refine gives_peek.bind fun start hstart => gives_peekSecond.after fun word =>
    Gives.guard fun _ => ?_
  dsimp only
  split
  · refine gives_advance.after fun _ => gives_advance.after fun _ =>
      (shapes_directives true fuel).bind fun dirs hdirs =>
        (shapes_operationTypeDefinition.optional fuel).bind fun types htypes =>
          shapes_extended (by decide) hstart (List.forall_mem_nil _) ?_
    simp only [List.forall_mem_cons]
    exact ⟨wellFormed_ofList hdirs (by decide), wellFormed_ofList htypes (by decide),
      List.forall_mem_nil _⟩
  · refine gives_advance.after fun _ => gives_advance.after fun _ => shapes_name.bind fun n hn =>
      (shapes_directives true fuel).bind fun dirs hdirs =>
        shapes_extended (by decide) hstart (by simpa using hn) ?_
    simp only [List.forall_mem_cons]
    exact ⟨wellFormed_ofList hdirs (by decide), List.forall_mem_nil _⟩
  · exact shapes_fieldsExtension (by decide) hstart fuel
  · exact shapes_fieldsExtension (by decide) hstart fuel
  · refine gives_advance.after fun _ => gives_advance.after fun _ => shapes_name.bind fun n hn =>
      (shapes_directives true fuel).bind fun dirs hdirs =>
        (shapes_unionMembers fuel).bind fun members hmembers =>
          shapes_extended (by decide) hstart (by simpa using hn) ?_
    simp only [List.forall_mem_cons]
    exact ⟨wellFormed_ofList hdirs (by decide), wellFormed_ofList hmembers (by decide),
      List.forall_mem_nil _⟩
  · refine gives_advance.after fun _ => gives_advance.after fun _ => shapes_name.bind fun n hn =>
      (shapes_directives true fuel).bind fun dirs hdirs =>
        (shapes_enumValueDefinitions fuel).bind fun values hvalues =>
          shapes_extended (by decide) hstart (by simpa using hn) ?_
    simp only [List.forall_mem_cons]
    exact ⟨wellFormed_ofList hdirs (by decide), wellFormed_ofList hvalues (by decide),
      List.forall_mem_nil _⟩
  · refine gives_advance.after fun _ => gives_advance.after fun _ => shapes_name.bind fun n hn =>
      (shapes_directives true fuel).bind fun dirs hdirs =>
        (shapes_inputFieldDefinitions fuel).bind fun fields hfields =>
          shapes_extended (by decide) hstart (by simpa using hn) ?_
    simp only [List.forall_mem_cons]
    exact ⟨wellFormed_ofList hdirs (by decide), wellFormed_ofList hfields (by decide),
      List.forall_mem_nil _⟩
  · exact Gives.failAt _ _

/-! ## Documents -/

theorem shapes_definition (fuel : Nat) : Shapes (definition fuel) 5 := by
  refine gives_peek.bind fun token htoken => Gives.ite (shapes_operationDefinition fuel) ?_
  extract_lets described chosen
  have hchosen (word : Token) : Shapes (chosen word) 5 := by
    refine Gives.guard fun _ => Gives.guard fun _ => ?_
    dsimp only
    split
    · exact shapes_schemaDefinition fuel
    · exact shapes_scalarDefinition fuel
    · exact shapes_fieldsDefinition (by decide) _ fuel
    · exact shapes_fieldsDefinition (by decide) _ fuel
    · exact shapes_unionDefinition fuel
    · exact shapes_enumDefinition fuel
    · exact shapes_inputObjectDefinition fuel
    · exact shapes_directiveDefinition fuel
    · exact shapes_operationDefinition fuel
    · exact shapes_operationDefinition fuel
    · exact shapes_operationDefinition fuel
    · exact shapes_fragmentDefinition fuel
    · exact Gives.ite (Gives.failAt _ _) (Gives.ite (shapes_extension fuel) (Gives.failAt _ _))
  exact Gives.ite (gives_peekSecond.after hchosen) (hchosen token)

theorem shapes_document (fuel : Nat) : Shapes (document fuel) 5 := by
  refine gives_peek.after fun _ =>
    ((shapes_definition fuel).someUntil (List.forall_mem_nil _) fuel).bind
      fun definitions hdefinitions => Gives.pure ?_
  exact Node.wellFormed_mk .document Position.valid_start
    (wellFormed_ofList hdefinitions (by decide)) (by decide)

end Grammar

/-- Every document that is read from a text has the shape. -/
theorem Node.wellFormed_of_parse {text : String} {document : Node}
    (h : Node.parse text = .ok document) : document.WellFormed 5 := by
  unfold Node.parse TokenStream.document at h
  cases hread : Grammar.document ((TokenStream.ofText text).size + 1) (.ofText text) with
  | error fault =>
      rw [hread] at h
      cases h
  | ok read =>
      rw [hread] at h
      cases h
      exact (Grammar.shapes_document _ _ read.1 read.2 (TokenStream.lexical_ofText text) hread).1

end TypeTrace
