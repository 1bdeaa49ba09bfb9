import Courier.Json.Reader
import Courier.Proofs.Json.Double
import Courier.Proofs.Json.Object
import Courier.Proofs.Json.Scan

/-!
# Values read back

The text of a value is read as a document of the same shape, with what the digits of a double say in its place. A
value that is not nested too deeply is always read; without doubles it reads back as itself if its members are in
order.
-/

namespace Courier

/-! ## The document of a value -/

def Number.document : Number → Document
  | nat n => .num (some (.nat n))
  | negSucc n => .num (some (.negSucc n))
  | float x => if x.isFinite then .num ((Numeral.ofChars? (Float.json x).toList).bind (·.value?)) else .null

namespace Json

mutual

/-- What the text of a value is read as. -/
def document : Json → Document
  | null => .null
  | bool b => .bool b
  | num n => n.document
  | str s => .str (some s)
  | arr items => .arr (itemDocuments items)
  | obj members => .obj (memberDocuments members)

def itemDocuments : List Json → List Document
  | [] => []
  | v :: rest => document v :: itemDocuments rest

def memberDocuments : List (String × Json) → List (Option String × Document)
  | [] => []
  | (k, v) :: rest => (some k, document v) :: memberDocuments rest

end

end Json

namespace Document

variable {frames : List Frame} {ts more : List Token}

theorem run?_cons {s s' : State} {t : Token} (h : step? s t = some s') : run? s (t :: ts) = run? s' ts := by
  simp only [run?, h]

theorem run?_firstItem {v : Json} (h : v.tokens? = some ts) :
    run? ⟨frames, .firstItem⟩ (ts ++ more) = run? ⟨.arr [] :: frames, .value⟩ (ts ++ more) := by
  unfold Json.tokens? at h
  split at h
  · cases h; rfl
  · cases h; rfl
  · next n =>
    obtain ⟨t, ht, rfl⟩ := Option.map_eq_some_iff.mp h
    cases n with
    | nat n => cases ht; rfl
    | negSucc n => cases ht; rfl
    | float x =>
      unfold Number.token? at ht
      simp only at ht
      split at ht
      · obtain ⟨m, -, rfl⟩ := Option.map_eq_some_iff.mp ht
        rfl
      · cases ht; rfl
  · cases h; rfl
  · cases h; rfl
  · simp only [Option.bind_eq_bind, Option.bind_eq_some_iff, Option.pure_def] at h
    obtain ⟨_, _, _, _, h⟩ := h
    cases h
    rfl
  · cases h; rfl
  · simp only [Option.bind_eq_bind, Option.bind_eq_some_iff, Option.pure_def] at h
    obtain ⟨_, _, _, _, h⟩ := h
    cases h
    rfl

theorem run?_num {n : Number} {t : Token} (h : n.token? = some t) :
    run? ⟨frames, .value⟩ (t :: more) = run? ⟨frames, .after n.document⟩ more := by
  cases n with
  | nat n => cases h; rfl
  | negSucc n => cases h; rfl
  | float x =>
    simp only [Number.token?, Number.document] at h ⊢
    split at h
    · next hx =>
      obtain ⟨m, hm, rfl⟩ := Option.map_eq_some_iff.mp h
      rw [if_pos hx, hm]
      rfl
    · next hx =>
      cases h
      rw [if_neg hx]
      rfl

mutual

theorem run?_tokens (frames : List Frame) {ts : List Token} (more : List Token) : ∀ {v : Json},
    v.tokens? = some ts → run? ⟨frames, .value⟩ (ts ++ more) = run? ⟨frames, .after v.document⟩ more
  | .null, h => by cases h; rfl
  | .bool b, h => by cases h; rfl
  | .num n, h => by
    obtain ⟨t, ht, rfl⟩ := Option.map_eq_some_iff.mp h
    exact run?_num ht
  | .str s, h => by cases h; rfl
  | .arr [], h => by cases h; rfl
  | .arr (v :: vs), h => by
    simp only [Json.tokens?, Option.bind_eq_bind, Option.bind_eq_some_iff, Option.pure_def] at h
    obtain ⟨first, hf, others, ho, h⟩ := h
    cases h
    rw [List.cons_append, run?_cons rfl, List.append_assoc, run?_firstItem hf,
      run?_tokens _ _ hf, List.append_assoc, List.singleton_append, run?_items frames more ho]
    rfl
  | .obj [], h => by cases h; rfl
  | .obj ((k, v) :: ms), h => by
    simp only [Json.tokens?, Option.bind_eq_bind, Option.bind_eq_some_iff, Option.pure_def] at h
    obtain ⟨first, hf, others, ho, h⟩ := h
    cases h
    rw [List.cons_append, run?_cons rfl, List.cons_append,
      run?_cons rfl, List.cons_append,
      run?_cons rfl, List.append_assoc,
      run?_tokens _ _ hf, List.append_assoc, List.singleton_append, run?_members frames more ho]
    rfl

theorem run?_items (frames : List Frame) {ts : List Token} (more : List Token) {done : List Document} {d : Document} :
    ∀ {vs : List Json}, Json.itemTokens? vs = some ts →
      run? ⟨.arr done :: frames, .after d⟩ (ts ++ .bracketR :: more) =
        run? ⟨frames, .after (.arr ((d :: done).reverse ++ Json.itemDocuments vs))⟩ more
  | [], h => by
    cases h
    rw [Json.itemDocuments, List.append_nil]
    rfl
  | v :: vs, h => by
    simp only [Json.itemTokens?, Option.bind_eq_bind, Option.bind_eq_some_iff, Option.pure_def] at h
    obtain ⟨first, hf, others, ho, h⟩ := h
    cases h
    rw [List.cons_append, run?_cons rfl, List.append_assoc,
      run?_tokens _ _ hf, run?_items frames more ho]
    simp [Json.itemDocuments]

theorem run?_members (frames : List Frame) {ts : List Token} (more : List Token)
    {done : List (Option String × Document)} {k : Option String} {d : Document} :
    ∀ {ms : List (String × Json)}, Json.memberTokens? ms = some ts →
      run? ⟨.obj done k :: frames, .after d⟩ (ts ++ .braceR :: more) =
        run? ⟨frames, .after (.obj (((k, d) :: done).reverse ++ Json.memberDocuments ms))⟩ more
  | [], h => by
    cases h
    rw [Json.memberDocuments, List.append_nil]
    rfl
  | (l, v) :: ms, h => by
    simp only [Json.memberTokens?, Option.bind_eq_bind, Option.bind_eq_some_iff, Option.pure_def] at h
    obtain ⟨first, hf, others, ho, h⟩ := h
    cases h
    rw [List.cons_append, run?_cons rfl, List.cons_append,
      run?_cons rfl, List.cons_append,
      run?_cons rfl, List.append_assoc,
      run?_tokens _ _ hf, run?_members frames more ho]
    simp [Json.memberDocuments]

end

/-- The text of a value is read as its document, or not at all. -/
theorem ofChars?_render (v : Json) : ofChars? v.render = v.tokens?.map fun _ => v.document := by
  rw [ofChars?, Token.scan?_render]
  cases h : v.tokens? with
  | none => rfl
  | some ts =>
    have hr := run?_tokens [] [] h
    rw [List.append_nil] at hr
    rw [Option.bind_some, ofTokens?, hr]
    rfl

end Document

/-- Whether there is the same text and the same natural number under each key. -/
def Object.Agrees (o p : Object) : Prop :=
  ∀ key, (p.get? key).bind Json.string? = (o.get? key).bind Json.string? ∧
    (p.get? key).bind Json.natural? = (o.get? key).bind Json.natural?

namespace Json

/-! ## Values without doubles -/

mutual

/-- Whether there is no double in it. -/
def Exact : Json → Prop
  | num (.float _) => False
  | arr items => ExactItems items
  | obj members => ExactMembers members
  | _ => True

def ExactItems : List Json → Prop
  | [] => True
  | v :: rest => Exact v ∧ ExactItems rest

def ExactMembers : List (String × Json) → Prop
  | [] => True
  | (_, v) :: rest => Exact v ∧ ExactMembers rest

end

mutual

def decideExact : ∀ v : Json, Decidable v.Exact
  | .null => .isTrue trivial
  | .bool _ => .isTrue trivial
  | .num (.nat _) => .isTrue trivial
  | .num (.negSucc _) => .isTrue trivial
  | .num (.float _) => .isFalse id
  | .str _ => .isTrue trivial
  | .arr items => decideExactItems items
  | .obj members => decideExactMembers members

def decideExactItems : ∀ items : List Json, Decidable (ExactItems items)
  | [] => .isTrue trivial
  | v :: rest => @instDecidableAnd _ _ (decideExact v) (decideExactItems rest)

def decideExactMembers : ∀ members : List (String × Json), Decidable (ExactMembers members)
  | [] => .isTrue trivial
  | (_, v) :: rest => @instDecidableAnd _ _ (decideExact v) (decideExactMembers rest)

end

mutual

def decideOrdered : ∀ v : Json, Decidable v.Ordered
  | .null => .isTrue trivial
  | .bool _ => .isTrue trivial
  | .num _ => .isTrue trivial
  | .str _ => .isTrue trivial
  | .arr items => decideOrderedItems items
  | .obj members => @instDecidableAnd _ _ inferInstance (decideOrderedMembers members)

def decideOrderedItems : ∀ items : List Json, Decidable (OrderedItems items)
  | [] => .isTrue trivial
  | v :: rest => @instDecidableAnd _ _ (decideOrdered v) (decideOrderedItems rest)

def decideOrderedMembers : ∀ members : List (String × Json), Decidable (OrderedMembers members)
  | [] => .isTrue trivial
  | (_, v) :: rest => @instDecidableAnd _ _ (decideOrdered v) (decideOrderedMembers rest)

end

instance (v : Json) : Decidable v.Exact := decideExact v

instance (v : Json) : Decidable v.Ordered := decideOrdered v

mutual

def depth : Json → Nat
  | arr items => itemDepth items + 1
  | obj members => memberDepth members + 1
  | _ => 0

def itemDepth : List Json → Nat
  | [] => 0
  | v :: rest => max (depth v) (itemDepth rest)

def memberDepth : List (String × Json) → Nat
  | [] => 0
  | (_, v) :: rest => max (depth v) (memberDepth rest)

end

theorem Number.token?_isSome (n : Number) : ∃ t, n.token? = some t := by
  cases n with
  | nat n => exact ⟨_, rfl⟩
  | negSucc n => exact ⟨_, rfl⟩
  | float x =>
    simp only [Number.token?]
    split
    · next hx =>
      obtain ⟨n, y, hn, -⟩ := Float.json_reads hx
      exact ⟨_, by rw [hn]; rfl⟩
    · exact ⟨_, rfl⟩

mutual

theorem tokens?_isSome : ∀ v : Json, ∃ ts, v.tokens? = some ts
  | .null => ⟨_, rfl⟩
  | .bool _ => ⟨_, rfl⟩
  | .num n => by
    obtain ⟨t, ht⟩ := Number.token?_isSome n
    exact ⟨_, by rw [tokens?, ht]; rfl⟩
  | .str _ => ⟨_, rfl⟩
  | .arr [] => ⟨_, rfl⟩
  | .arr (v :: vs) => by
    obtain ⟨first, hf⟩ := tokens?_isSome v
    obtain ⟨others, ho⟩ := itemTokens?_isSome vs
    exact ⟨_, by rw [tokens?, hf, ho]; rfl⟩
  | .obj [] => ⟨_, rfl⟩
  | .obj ((k, v) :: ms) => by
    obtain ⟨first, hf⟩ := tokens?_isSome v
    obtain ⟨others, ho⟩ := memberTokens?_isSome ms
    exact ⟨_, by rw [tokens?, hf, ho]; rfl⟩

theorem itemTokens?_isSome : ∀ vs : List Json, ∃ ts, itemTokens? vs = some ts
  | [] => ⟨_, rfl⟩
  | v :: vs => by
    obtain ⟨first, hf⟩ := tokens?_isSome v
    obtain ⟨others, ho⟩ := itemTokens?_isSome vs
    exact ⟨_, by rw [itemTokens?, hf, ho]; rfl⟩

theorem memberTokens?_isSome : ∀ ms : List (String × Json), ∃ ts, memberTokens? ms = some ts
  | [] => ⟨_, rfl⟩
  | (k, v) :: ms => by
    obtain ⟨first, hf⟩ := tokens?_isSome v
    obtain ⟨others, ho⟩ := memberTokens?_isSome ms
    exact ⟨_, by rw [memberTokens?, hf, ho]; rfl⟩

end

mutual

theorem toJson?_document : ∀ {v : Json} {room : Nat}, v.Ordered → v.Exact → v.depth ≤ room →
    v.document.toJson? room = some v
  | .null, _, _, _, _ => rfl
  | .bool _, _, _, _, _ => rfl
  | .num (.nat _), _, _, _, _ => rfl
  | .num (.negSucc _), _, _, _, _ => rfl
  | .num (.float _), _, _, h, _ => h.elim
  | .str _, _, _, _, _ => rfl
  | .arr vs, room, ho, he, hd => by
    simp only [depth] at hd
    have hi : Document.itemsToJson? (room - 1) (itemDocuments vs) = some vs := itemsToJson?_documents ho he (by omega)
    rw [document, Document.toJson?, if_neg (by omega), hi]
    rfl
  | .obj ms, room, ho, he, hd => by
    simp only [depth] at hd
    have hi : Document.membersToJson? (room - 1) (memberDocuments ms) = some ms :=
      membersToJson?_documents ho.2 he (by omega)
    rw [document, Document.toJson?, if_neg (by omega), hi, Option.map_some, Object.ofList_of_sorted ho.1]

theorem itemsToJson?_documents : ∀ {vs : List Json} {room : Nat}, OrderedItems vs → ExactItems vs →
    itemDepth vs ≤ room → Document.itemsToJson? room (itemDocuments vs) = some vs
  | [], _, _, _, _ => rfl
  | v :: vs, room, ho, he, hd => by
    simp only [itemDepth] at hd
    have hv : v.document.toJson? room = some v := toJson?_document ho.1 he.1 (by omega)
    have hi : Document.itemsToJson? room (itemDocuments vs) = some vs := itemsToJson?_documents ho.2 he.2 (by omega)
    rw [itemDocuments, Document.itemsToJson?, hv, hi]

theorem membersToJson?_documents : ∀ {ms : List (String × Json)} {room : Nat}, OrderedMembers ms →
    ExactMembers ms → memberDepth ms ≤ room → Document.membersToJson? room (memberDocuments ms) = some ms
  | [], _, _, _, _ => rfl
  | (k, v) :: ms, room, ho, he, hd => by
    simp only [memberDepth] at hd
    have hv : v.document.toJson? room = some v := toJson?_document ho.1 he.1 (by omega)
    have hi : Document.membersToJson? room (memberDocuments ms) = some ms :=
      membersToJson?_documents ho.2 he.2 (by omega)
    simp only [memberDocuments, Document.membersToJson?, hv, hi]

end

theorem render_obj (o : Object) : ∃ inner, (obj o).render = '{' :: (inner ++ ['}']) := by
  cases o with
  | nil => exact ⟨[], rfl⟩
  | cons m o =>
    obtain ⟨k, v⟩ := m
    exact ⟨quote k ++ ':' :: (render v ++ renderMembers o), by simp [render]⟩

end Json

theorem Document.ofString?_text (v : Json) : ofString? v.text = some v.document := by
  obtain ⟨ts, ht⟩ := v.tokens?_isSome
  rw [ofString?, Json.text, String.toList_ofList, ofChars?_render, ht]
  rfl

namespace Json

theorem ofString?_text (v : Json) : ofString? v.text = v.document.toJson? Document.nestingLimit := by
  have hd := Document.ofString?_text v
  unfold Document.ofString? at hd
  rw [ofString?, ofChars?, hd, Option.bind_some]

/-- A value without doubles reads back as itself. -/
theorem ofString?_text_of_exact {v : Json} (ho : v.Ordered) (he : v.Exact)
    (hd : v.depth ≤ Document.nestingLimit) : ofString? v.text = some v := by
  rw [ofString?_text, toJson?_document ho he hd]

/-! A member that is put into an object is all that changes. -/

theorem orderedMembers_set {v : Json} (hv : v.Ordered) (key : String) : ∀ {o : Object}, OrderedMembers o →
    OrderedMembers (o.set key v)
  | [], _ => ⟨hv, trivial⟩
  | (k, w) :: o, ho => by
    unfold Object.set
    split
    · exact ⟨hv, ho⟩
    · split
      · exact ⟨hv, ho.2⟩
      · exact ⟨ho.1, orderedMembers_set hv key ho.2⟩

theorem exactMembers_set {v : Json} (hv : v.Exact) (key : String) : ∀ {o : Object}, ExactMembers o →
    ExactMembers (o.set key v)
  | [], _ => ⟨hv, trivial⟩
  | (k, w) :: o, ho => by
    unfold Object.set
    split
    · exact ⟨hv, ho⟩
    · split
      · exact ⟨hv, ho.2⟩
      · exact ⟨ho.1, exactMembers_set hv key ho.2⟩

theorem memberDepth_set (v : Json) (key : String) : ∀ o : Object,
    memberDepth (o.set key v) ≤ max v.depth (memberDepth o)
  | [] => by simp [Object.set, memberDepth]
  | (k, w) :: o => by
    have ih := memberDepth_set v key o
    unfold Object.set
    split
    · simp only [memberDepth]; omega
    · split
      · simp only [memberDepth]; omega
      · simp only [memberDepth]; omega

/-! ## Objects with doubles -/

/-- Whether two values are the same if they are text or natural numbers. -/
def Agrees (v w : Json) : Prop := w.string? = v.string? ∧ w.natural? = v.natural?

theorem Number.natural?_document {x : Float} {room : Nat} {w : Json}
    (h : (Number.float x).document.toJson? room = some w) : w.string? = none ∧ w.natural? = none := by
  simp only [Number.document] at h
  split at h
  · next hx =>
    simp only [Document.toJson?] at h
    obtain ⟨n, hn, rfl⟩ := Option.map_eq_some_iff.mp h
    obtain ⟨m, hm, hv⟩ := Option.bind_eq_some_iff.mp hn
    rw [Numeral.ofChars?_value? hm (Float.json_numeric hx).2] at hv
    obtain ⟨y, -, rfl⟩ := Option.map_eq_some_iff.mp hv
    exact ⟨rfl, rfl⟩
  · cases h; exact ⟨rfl, rfl⟩

theorem agrees_document {v w : Json} {room : Nat} (h : v.document.toJson? room = some w) : v.Agrees w := by
  cases v with
  | null => cases h; exact ⟨rfl, rfl⟩
  | bool b => cases h; exact ⟨rfl, rfl⟩
  | num n =>
    cases n with
    | nat n => cases h; exact ⟨rfl, rfl⟩
    | negSucc n => cases h; exact ⟨rfl, rfl⟩
    | float x => exact Number.natural?_document h
  | str s => cases h; exact ⟨rfl, rfl⟩
  | arr vs =>
    simp only [document, Document.toJson?] at h
    split at h
    · cases h
    · obtain ⟨ws, -, rfl⟩ := Option.map_eq_some_iff.mp h
      exact ⟨rfl, rfl⟩
  | obj ms =>
    simp only [document, Document.toJson?] at h
    split at h
    · cases h
    · obtain ⟨ws, -, rfl⟩ := Option.map_eq_some_iff.mp h
      exact ⟨rfl, rfl⟩

theorem membersToJson?_agrees : ∀ {ms ws : List (String × Json)} {room : Nat},
    Document.membersToJson? room (memberDocuments ms) = some ws →
      ws.map Prod.fst = ms.map Prod.fst ∧ Object.Agrees ms ws
  | [], ws, room, h => by cases h; exact ⟨rfl, fun _ => ⟨rfl, rfl⟩⟩
  | (k, v) :: ms, ws, room, h => by
    unfold memberDocuments Document.membersToJson? at h
    split at h
    · next l w us hl hw hu =>
      cases h
      cases hl
      obtain ⟨hk, ha⟩ := membersToJson?_agrees hu
      obtain ⟨hs, hn⟩ := agrees_document hw
      refine ⟨by simp [hk], fun key => ?_⟩
      rw [Object.get?_cons, Object.get?_cons]
      split
      · exact ⟨hs, hn⟩
      · exact ha key
    · cases h

mutual

theorem toJson?_isSome : ∀ {v : Json} {room : Nat}, v.depth ≤ room → ∃ w, v.document.toJson? room = some w
  | .null, _, _ => ⟨_, rfl⟩
  | .bool _, _, _ => ⟨_, rfl⟩
  | .num (.nat _), _, _ => ⟨_, rfl⟩
  | .num (.negSucc _), _, _ => ⟨_, rfl⟩
  | .num (.float x), room, _ => by
    simp only [document, Number.document]
    split
    · next hx =>
      obtain ⟨n, y, hn, hy⟩ := Float.json_reads hx
      exact ⟨_, by rw [hn, Option.bind_some, hy]; rfl⟩
    · exact ⟨_, rfl⟩
  | .str _, _, _ => ⟨_, rfl⟩
  | .arr vs, room, hd => by
    simp only [depth] at hd
    obtain ⟨ws, hw⟩ := itemsToJson?_isSome (show itemDepth vs ≤ room - 1 by omega)
    exact ⟨_, by rw [document, Document.toJson?, if_neg (by omega), hw]; rfl⟩
  | .obj ms, room, hd => by
    simp only [depth] at hd
    obtain ⟨ws, hw⟩ := membersToJson?_isSome (show memberDepth ms ≤ room - 1 by omega)
    exact ⟨_, by rw [document, Document.toJson?, if_neg (by omega), hw]; rfl⟩

theorem itemsToJson?_isSome : ∀ {vs : List Json} {room : Nat}, itemDepth vs ≤ room →
    ∃ ws, Document.itemsToJson? room (itemDocuments vs) = some ws
  | [], _, _ => ⟨_, rfl⟩
  | v :: vs, room, hd => by
    simp only [itemDepth] at hd
    obtain ⟨w, hw⟩ := toJson?_isSome (show v.depth ≤ room by omega)
    obtain ⟨ws, hws⟩ := itemsToJson?_isSome (show itemDepth vs ≤ room by omega)
    exact ⟨_, by rw [itemDocuments, Document.itemsToJson?, hw, hws]⟩

theorem membersToJson?_isSome : ∀ {ms : List (String × Json)} {room : Nat}, memberDepth ms ≤ room →
    ∃ ws, Document.membersToJson? room (memberDocuments ms) = some ws
  | [], _, _ => ⟨_, rfl⟩
  | (k, v) :: ms, room, hd => by
    simp only [memberDepth] at hd
    obtain ⟨w, hw⟩ := toJson?_isSome (show v.depth ≤ room by omega)
    obtain ⟨ws, hws⟩ := membersToJson?_isSome (show memberDepth ms ≤ room by omega)
    exact ⟨(k, w) :: ws, by simp only [memberDocuments, Document.membersToJson?, hw, hws]⟩

end

/-- Whatever doubles there are in it, the text of a value that is not nested too deeply is read. -/
theorem ofString?_text_isSome {v : Json} (hd : v.depth ≤ Document.nestingLimit) : ∃ w, ofString? v.text = some w := by
  rw [ofString?_text]
  exact toJson?_isSome hd

/-- What the text of an object is read as, if it is read, is an object that agrees with it. -/
theorem ofString?_text_agrees {o : Object} (ho : o.Sorted) {w : Json} (h : ofString? (obj o).text = some w) :
    ∃ p, w = .obj p ∧ o.Agrees p := by
  rw [ofString?_text] at h
  rw [document, Document.toJson?, if_neg (by decide)] at h
  obtain ⟨ws, hw, rfl⟩ := Option.map_eq_some_iff.mp h
  obtain ⟨hk, ha⟩ := membersToJson?_agrees hw
  have hs : Object.Sorted ws := by rw [Object.Sorted, hk]; exact ho
  exact ⟨ws, by rw [Object.ofList_of_sorted hs], ha⟩

end Json

end Courier
