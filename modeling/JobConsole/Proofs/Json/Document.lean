import JobConsole.Json.Node
import JobConsole.Proofs.Json.Lexing

/-! # Documents of printed texts

The tokens of a value are put together to the tree of that value, in whatever lists it stands.
-/

namespace JobConsole.Json

mutual

/-- The tree of a value. A floating number has none. -/
def node : Json → Node
  | .null => .null
  | .bool b => .bool b
  | .number (.int n) => .number (numeralOf n)
  | .number (.double _) => .cut
  | .text s => .text (some s)
  | .array items => .array (itemsOf items)
  | .object members => .object (entriesOf members)

def itemsOf : List Json → Items
  | [] => .closed
  | v :: r => .cons (node v) (itemsOf r)

def entriesOf : List (String × Json) → Entries
  | [] => .closed
  | (k, v) :: r => .cons (some k) (node v) (entriesOf r)

end

variable {fs fs' : List Frame} {p p' : Place} {t : Token}

theorem build_cons (h : advance? fs p t = some (fs', p')) (ts : List Token) :
    build fs p (t :: ts) = build fs' p' ts := by
  simp only [build, h]

/-- A value may begin at the place, inside the open lists `fs'`. -/
def Begins (fs : List Frame) (p : Place) (fs' : List Frame) : Prop :=
  ∀ t, t ≠ .endArray → advance? fs p t = begin? fs' t

theorem begins_value (fs : List Frame) : Begins fs .value fs := fun _ _ => rfl

theorem begins_firstItem (fs : List Frame) : Begins fs .firstItem (.array [] :: fs) := by
  intro t ht
  cases t with
  | endArray => exact absurd rfl ht
  | _ => rfl

mutual

/-- Once its tokens are taken a value is there. -/
theorem build_tokensOf : ∀ (v : Json) {fs fs' : List Frame} {p : Place} (ts : List Token),
    Begins fs p fs' → isExact v = true →
    build fs p (tokensOf v ++ ts) = build fs' (.after (node v)) ts
  | .null, _, _, _, ts, hb, _ => build_cons (hb .null Token.noConfusion) ts
  | .bool b, _, _, _, ts, hb, _ => build_cons (hb (.bool b) Token.noConfusion) ts
  | .number (.int n), _, _, _, ts, hb, _ =>
    build_cons (hb (.number (numeralOf n)) Token.noConfusion) ts
  | .number (.double _), _, _, _, _, _, h => absurd h Bool.false_ne_true
  | .text s, _, _, _, ts, hb, _ => build_cons (hb (.text (some s)) Token.noConfusion) ts
  | .array [], _, _, _, ts, hb, _ => build_cons (hb .beginArray Token.noConfusion) (.endArray :: ts)
  | .object [], _, _, _, ts, hb, _ =>
    build_cons (hb .beginObject Token.noConfusion) (.endObject :: ts)
  | .array (v :: r), fs, fs', p, ts, hb, h => by
    obtain ⟨hv, hr⟩ := Bool.and_eq_true_iff.mp h
    rw [tokensOf, List.cons_append, List.append_assoc, build_cons (hb .beginArray Token.noConfusion),
      build_tokensOf v _ (begins_firstItem fs') hv, build_itemTokens r [] (node v) ts hr]
    rfl
  | .object ((k, v) :: r), fs, fs', p, ts, hb, h => by
    obtain ⟨hv, hr⟩ := Bool.and_eq_true_iff.mp h
    have hkey (ts : List Token) : build fs' .firstKey (.text (some k) :: .colon :: ts) =
        build (.object [] (some k) :: fs') .value ts := rfl
    rw [tokensOf, List.cons_append, List.cons_append, List.cons_append, List.append_assoc,
      build_cons (hb .beginObject Token.noConfusion), hkey, build_tokensOf v _ (begins_value _) hv,
      build_memberTokens r [] (some k) (node v) ts hr]
    rfl

theorem build_itemTokens : ∀ (r : List Json) {fs : List Frame} (items : List Node) (x : Node)
    (ts : List Token), areExact r = true →
    build (.array items :: fs) (.after x) (itemTokens r ++ ts) =
      build fs (.after (.array (.pushAll (itemsOf r) (x :: items)))) ts
  | [], _, _, _, _, _ => rfl
  | v :: r, fs, items, x, ts, h => by
    obtain ⟨hv, hr⟩ := Bool.and_eq_true_iff.mp h
    have hcomma (ts : List Token) : build (.array items :: fs) (.after x) (.comma :: ts) =
        build (.array (x :: items) :: fs) .value ts := rfl
    rw [itemTokens, List.cons_append, List.append_assoc, hcomma,
      build_tokensOf v _ (begins_value _) hv, build_itemTokens r (x :: items) (node v) ts hr]
    rfl

theorem build_memberTokens : ∀ (r : List (String × Json)) {fs : List Frame}
    (entries : List (Option String × Node)) (k : Option String) (x : Node) (ts : List Token),
    haveExact r = true →
    build (.object entries k :: fs) (.after x) (memberTokens r ++ ts) =
      build fs (.after (.object (.pushAll (entriesOf r) ((k, x) :: entries)))) ts
  | [], _, _, _, _, _, _ => rfl
  | (l, v) :: r, fs, entries, k, x, ts, h => by
    obtain ⟨hv, hr⟩ := Bool.and_eq_true_iff.mp h
    have hcomma (ts : List Token) : build (.object entries k :: fs) (.after x)
        (.comma :: .text (some l) :: .colon :: ts) =
        build (.object ((k, x) :: entries) (some l) :: fs) .value ts := rfl
    rw [memberTokens, List.cons_append, List.cons_append, List.cons_append, List.append_assoc, hcomma,
      build_tokensOf v _ (begins_value _) hv,
      build_memberTokens r ((k, x) :: entries) (some l) (node v) ts hr]
    rfl

end

/-- The text of a value is a document with this value and nothing else. -/
theorem document_render {v : Json} (h : v.isExact = true) : document v.render = ⟨node v, true⟩ := by
  have hbuild := build_tokensOf v [] (begins_value []) h
  rw [List.append_nil] at hbuild
  rw [document, tokens_render h, hbuild]
  rfl

end JobConsole.Json
