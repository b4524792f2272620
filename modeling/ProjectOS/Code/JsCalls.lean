import ProjectOS.Code.JsSource

/-! Where the patterns match at the calls, declarations and method properties of a
source only, the gate reads exactly the operations of the source. -/
namespace ProjectOS.Code.Js
open Base Text

variable {w : WordChars}

/-- Nothing in the first argument is read otherwise than JavaScript reads it. -/
def FirstArgument.Plain (constants : Dict (List Char) (List Char)) : FirstArgument w → Prop
  | quoted literal =>
      (∀ item ∈ literal.items, item.isPlain = true) ∧ Pattern.Absent templatePart literal.value []
  | template string => string.Plain
  | constant name =>
      name.chars.head?.any isNameStart = true ∧
        Pattern.Absent templatePart ((constants.get? name.chars).getD []) []

instance (constants : Dict (List Char) (List Char)) :
    (first : FirstArgument w) → Decidable (first.Plain constants)
  | .quoted _ => inferInstanceAs (Decidable (_ ∧ _))
  | .template string => inferInstanceAs (Decidable string.Plain)
  | .constant _ => inferInstanceAs (Decidable (_ ∧ _))

/-- A key without marks, and one of the known methods as a plain string. -/
def MethodProperty.Plain (property : MethodProperty) : Prop :=
  property.keyMark = none ∧ property.value.Plain ∧ property.value.value ≠ [] ∧
    (∀ c ∈ property.value.value, isAsciiLetter c = true) ∧
    String.ofList (upper property.value.value) ∈ httpMethods

instance (property : MethodProperty) : Decidable property.Plain :=
  inferInstanceAs (Decidable (_ ∧ _ ∧ _ ∧ _ ∧ _))

namespace Call
variable (call : Call w)

/-- The arguments up to the key of the method property. -/
def methodFront (before after : Gap) (front : List (Entry w)) (method : MethodProperty) :
    List Char :=
  call.before.chars ++ call.first.text ++ before.chars ++
    ',' :: (after.chars ++ Options.frontText front ++ method.before.chars)

/-- The first place that looks like a method property is the one of the options. -/
def MethodOwn : Prop :=
  match call.options with
  | some (before, after, .withMethod front method rest ending) =>
      method.Plain ∧ Pattern.Silent w.wordStart jsMethod [] (call.methodFront before after front method)
        (method.core ++ (method.after.chars ++ Options.restText rest ending ++ call.ending.text))
  | _ => Pattern.Silent w.wordStart jsMethod [] call.arguments []

instance : Decidable call.MethodOwn := by
  unfold MethodOwn
  split <;> infer_instance

def Plain (constants : Dict (List Char) (List Char)) : Prop :=
  call.first.Plain constants ∧ call.MethodOwn

instance (constants : Dict (List Char) (List Char)) : Decidable (call.Plain constants) :=
  inferInstanceAs (Decidable (_ ∧ _))

end Call

/-- The calls that the pattern finds are the calls of the source. -/
def SitesOwn (constants : Dict (List Char) (List Char)) (before : List Char) :
    List (Site w) → List Char → Prop
  | [], tail => Pattern.Silent w.wordStart jsCall before tail []
  | site :: sites, tail =>
      Pattern.Silent w.wordStart jsCall before site.front (site.call.head ++ sitesText sites tail) ∧
        site.call.Plain constants ∧
        SitesOwn constants (before ++ site.front ++ site.call.head) sites tail

def decideSitesOwn (constants : Dict (List Char) (List Char)) : (before : List Char) →
    (sites : List (Site w)) → (tail : List Char) → Decidable (SitesOwn constants before sites tail)
  | before, [], tail => inferInstanceAs (Decidable (Pattern.Silent w.wordStart jsCall before tail []))
  | before, site :: sites, tail =>
      have := decideSitesOwn constants (before ++ site.front ++ site.call.head) sites tail
      inferInstanceAs (Decidable (Pattern.Silent w.wordStart jsCall before site.front
          (site.call.head ++ sitesText sites tail) ∧ site.call.Plain constants ∧
        SitesOwn constants (before ++ site.front ++ site.call.head) sites tail))

instance (constants : Dict (List Char) (List Char)) (before : List Char) (sites : List (Site w))
    (tail : List Char) : Decidable (SitesOwn constants before sites tail) :=
  decideSitesOwn constants before sites tail

/-- No mark inside the value, and a name that starts in ASCII. -/
def Declaration.Plain (declaration : Declaration w) : Prop :=
  declaration.literal.Plain ∧ declaration.name.chars.head?.any isNameStart = true ∧
    declaration.literal.value.head? = some '/' ∧
    ∀ c ∈ declaration.literal.value,
      (c != apostrophe && c != quotationMark && c != '\r' && c != '\n') = true

instance (declaration : Declaration w) : Decidable declaration.Plain :=
  inferInstanceAs (Decidable (_ ∧ _ ∧ _ ∧ _))

/-- The constants that the pattern finds are the declared ones. -/
def DeclarationsOwn (before : List Char) : List (List Char × Declaration w) → List Char → Prop
  | [], tail => Pattern.Silent w.wordStart (jsConst w) before tail []
  | (front, declaration) :: rest, tail =>
      Pattern.Silent w.wordStart (jsConst w) before front
          (declaration.text ++ declarationsText rest tail) ∧
        declaration.Plain ∧ DeclarationsOwn (before ++ front ++ declaration.text) rest tail

def decideDeclarationsOwn : (before : List Char) →
    (declarations : List (List Char × Declaration w)) → (tail : List Char) →
      Decidable (DeclarationsOwn before declarations tail)
  | before, [], tail =>
      inferInstanceAs (Decidable (Pattern.Silent w.wordStart (jsConst w) before tail []))
  | before, (front, declaration) :: rest, tail =>
      have := decideDeclarationsOwn (before ++ front ++ declaration.text) rest tail
      inferInstanceAs (Decidable (Pattern.Silent w.wordStart (jsConst w) before front
          (declaration.text ++ declarationsText rest tail) ∧ declaration.Plain ∧
        DeclarationsOwn (before ++ front ++ declaration.text) rest tail))

instance (before : List Char) (declarations : List (List Char × Declaration w))
    (tail : List Char) : Decidable (DeclarationsOwn before declarations tail) :=
  decideDeclarationsOwn before declarations tail

def JsSource.Own (source : JsSource w) : Prop :=
  SitesOwn source.constants [] source.sites source.tail ∧
    DeclarationsOwn [] source.declarations source.rest

instance (source : JsSource w) : Decidable source.Own := inferInstanceAs (Decidable (_ ∧ _))

/-- The scan for the closing bracket goes over the text as a whole. -/
def Passes (text : List Char) : Prop :=
  ∀ depth rest, 0 < depth → closeBrackets depth none false (text ++ rest) =
    (closeBrackets depth none false rest).map (text ++ ·)

namespace Passes

theorem nil : Passes [] := by
  intro depth rest _
  simp

theorem append {a b : List Char} (ha : Passes a) (hb : Passes b) : Passes (a ++ b) := by
  intro depth rest hdepth
  rw [List.append_assoc, ha depth _ hdepth, hb depth _ hdepth, Option.map_map]
  apply congrFun
  apply congrArg
  funext text
  simp

theorem char {c : Char} (hquote : isQuote c = false) (hopen : c ≠ '(') (hclose : c ≠ ')') :
    Passes [c] := by
  intro depth rest _
  rw [List.singleton_append, closeBrackets, hquote, if_neg Bool.false_ne_true, if_neg hopen,
    if_neg hclose]
  rfl

theorem of_forall {text : List Char}
    (h : ∀ c ∈ text, isQuote c = false ∧ c ≠ '(' ∧ c ≠ ')') : Passes text := by
  induction text with
  | nil => exact nil
  | cons c text ih =>
    obtain ⟨hquote, hopen, hclose⟩ := h c List.mem_cons_self
    exact append (char hquote hopen hclose) (ih fun d hd => h d (List.mem_cons_of_mem _ hd))

theorem flatMap {β : Type} {f : β → List Char} {xs : List β} (h : ∀ x ∈ xs, Passes (f x)) :
    Passes (xs.flatMap f) := by
  induction xs with
  | nil => exact nil
  | cons x xs ih =>
    rw [List.flatMap_cons]
    exact append (h x List.mem_cons_self) (ih fun y hy => h y (List.mem_cons_of_mem _ hy))

/-- What stands in brackets is balanced when its inside is. -/
theorem round {text : List Char} (h : Passes text) : Passes ('(' :: (text ++ [')'])) := by
  intro depth rest hdepth
  have hinside := h (depth + 1) (')' :: rest) (Nat.succ_pos depth)
  have hclose : closeBrackets (depth + 1) none false (')' :: rest) =
      (closeBrackets depth none false rest).map (')' :: ·) := by
    rw [closeBrackets, if_neg (by decide), if_neg (by decide), if_pos rfl, if_neg (by omega),
      Nat.add_sub_cancel]
  rw [hclose, Option.map_map] at hinside
  rw [List.cons_append, List.append_assoc, List.singleton_append, closeBrackets,
    if_neg (by decide), if_pos rfl, hinside, Option.map_map]
  apply congrFun
  apply congrArg
  funext found
  simp

end Passes

theorem QuoteMark.isQuote (mark : QuoteMark) : isQuote mark.char = true := by
  cases mark <;> decide

theorem QuoteMark.ne_backslash (mark : QuoteMark) : mark.char ≠ backslash := by
  cases mark <;> decide

/-- A text in quotation marks is passed over when its inside is read back to the state
of an open string. -/
theorem passes_quoted {mark : QuoteMark} {inside : List Char}
    (h : ∀ depth rest, closeBrackets depth (some mark.char) false (inside ++ rest) =
      (closeBrackets depth (some mark.char) false rest).map (inside ++ ·)) :
    Passes (mark.char :: (inside ++ [mark.char])) := by
  intro depth rest _
  have hend : closeBrackets depth (some mark.char) false (mark.char :: rest) =
      (closeBrackets depth none false rest).map (mark.char :: ·) := by
    rw [closeBrackets, if_neg Bool.false_ne_true, if_neg mark.ne_backslash, if_pos rfl]
  rw [List.cons_append, List.append_assoc, List.singleton_append, closeBrackets,
    if_pos mark.isQuote, h, hend, Option.map_map, Option.map_map]
  apply congrFun
  apply congrArg
  funext found
  simp

/-- Inside a string, an item leaves the string open. -/
theorem closeBrackets_item {mark : QuoteMark} {item : Item} (h : item.fits mark = true)
    (depth : Nat) (rest : List Char) :
    closeBrackets depth (some mark.char) false (item.text ++ rest) =
      (closeBrackets depth (some mark.char) false rest).map (item.text ++ ·) := by
  cases item with
  | plain c =>
    simp only [Item.fits, Bool.and_eq_true, bne_iff_ne, ne_eq] at h
    rw [Item.text, List.singleton_append, closeBrackets, if_neg Bool.false_ne_true, if_neg h.2,
      if_neg h.1]
    rfl
  | escape c =>
    rw [Item.text, List.cons_append, List.singleton_append, closeBrackets,
      if_neg Bool.false_ne_true, if_pos rfl, closeBrackets, if_pos rfl, Option.map_map]
    rfl

/-- What one item of a string does, the string does. -/
theorem closeBrackets_flatMap {β : Type} {f : β → List Char} {xs : List β} {mark : QuoteMark}
    (h : ∀ x ∈ xs, ∀ depth rest, closeBrackets depth (some mark.char) false (f x ++ rest) =
      (closeBrackets depth (some mark.char) false rest).map (f x ++ ·)) (depth : Nat)
    (rest : List Char) :
    closeBrackets depth (some mark.char) false (xs.flatMap f ++ rest) =
      (closeBrackets depth (some mark.char) false rest).map (xs.flatMap f ++ ·) := by
  induction xs with
  | nil => simp
  | cons x xs ih =>
    rw [List.flatMap_cons, List.append_assoc, h x List.mem_cons_self,
      ih fun y hy => h y (List.mem_cons_of_mem _ hy), Option.map_map]
    apply congrFun
    apply congrArg
    funext found
    simp

theorem Literal.passes (literal : Literal) : Passes literal.text :=
  passes_quoted fun depth rest =>
    closeBrackets_flatMap (fun item hitem => closeBrackets_item (literal.closed item hitem)) depth rest

/-- The inside of an interpolation, up to its brace, leaves the template open. -/
theorem closeBrackets_hole {expression : List Char} (h : backtick ∉ expression) (depth : Nat)
    (escaped : Bool) (rest : List Char) :
    closeBrackets depth (some backtick) escaped (expression ++ '}' :: rest) =
      (closeBrackets depth (some backtick) false rest).map (expression ++ '}' :: ·) := by
  induction expression generalizing escaped with
  | nil =>
    rw [List.nil_append, closeBrackets]
    cases escaped with
    | true => rfl
    | false =>
      rw [if_neg Bool.false_ne_true, if_neg (by decide), if_neg (by decide)]
      rfl
  | cons c expression ih =>
    simp only [List.mem_cons, not_or] at h
    rw [List.cons_append, closeBrackets]
    cases escaped with
    | true => rw [if_pos rfl, ih h.2, Option.map_map]; rfl
    | false =>
      rw [if_neg Bool.false_ne_true, ih h.2, ih h.2, if_neg (Ne.symm h.1), ite_self, Option.map_map]
      rfl

theorem closeBrackets_part {part : Part} (hfits : part.fits = true) (hplain : part.isPlain = true)
    (depth : Nat) (rest : List Char) :
    closeBrackets depth (some backtick) false (part.text ++ rest) =
      (closeBrackets depth (some backtick) false rest).map (part.text ++ ·) := by
  cases part with
  | plain c => exact @closeBrackets_item .backtick (.plain c) hfits depth rest
  | escape => cases hplain
  | hole expression =>
    have hbacktick : backtick ∉ expression := by
      intro hmem
      have := List.all_eq_true.mp hplain _ hmem
      exact absurd this (by decide)
    have hopen (c : Char) (text : List Char) (hc : c ≠ backslash) (hmark : c ≠ backtick) :
        closeBrackets depth (some backtick) false (c :: text) =
          (closeBrackets depth (some backtick) false text).map (c :: ·) := by
      rw [closeBrackets, if_neg Bool.false_ne_true, if_neg hc, if_neg hmark]
    rw [Part.text, List.cons_append, List.cons_append, List.append_assoc, List.singleton_append,
      hopen '$' _ (by decide) (by decide), hopen '{' _ (by decide) (by decide),
      closeBrackets_hole hbacktick, Option.map_map, Option.map_map]
    apply congrFun
    apply congrArg
    funext found
    simp

theorem Template.passes {template : Template} (h : template.Plain) : Passes template.text := by
  apply @passes_quoted .backtick
  intro depth rest
  exact @closeBrackets_flatMap Part Part.text template.parts .backtick
    (fun part hpart => closeBrackets_part (template.closed part hpart) (h part hpart)) depth rest

theorem Gap.passes (gap : Gap) : Passes gap.chars := by
  apply Passes.of_forall
  intro c hc
  have hspace := gap.blank c hc
  refine ⟨?_, ?_, ?_⟩
  · by_contra hquote
    rw [Bool.not_eq_false, isQuote, Bool.or_eq_true, Bool.or_eq_true, beq_iff_eq, beq_iff_eq,
      beq_iff_eq] at hquote
    rcases hquote with (rfl | rfl) | rfl <;> exact absurd hspace (by decide)
  · rintro rfl
    exact absurd hspace (by decide)
  · rintro rfl
    exact absurd hspace (by decide)

theorem isQuote_ascii {c : Char} (h : isQuote c = true ∨ c = '(' ∨ c = ')') :
    c.toNat < 128 ∧ isAsciiLetter c = false ∧ isAsciiDigit c = false ∧ c ≠ '_' ∧ c ≠ '$' := by
  have hcases : c = apostrophe ∨ c = quotationMark ∨ c = backtick ∨ c = '(' ∨ c = ')' := by
    simpa [isQuote, or_assoc] using h
  rcases hcases with rfl | rfl | rfl | rfl | rfl <;> decide

theorem Name.passes (name : Name w) : Passes name.chars := by
  apply Passes.of_forall
  intro c hc
  have hword := name.word c hc
  have hnot (h : isQuote c = true ∨ c = '(' ∨ c = ')') : False := by
    obtain ⟨hascii, hletter, hdigit, hunder, hdollar⟩ := isQuote_ascii h
    rw [w.ascii c hascii, hletter, hdigit] at hword
    simp [hunder, hdollar] at hword
  refine ⟨?_, ?_, ?_⟩
  · by_contra hquote
    exact hnot (Or.inl (by simpa using hquote))
  · exact fun h => hnot (Or.inr (Or.inl h))
  · exact fun h => hnot (Or.inr (Or.inr h))

theorem Expression.passes {expression : Expression} (h : expression.fits = true) :
    Passes expression.text := by
  induction expression with
  | done => exact Passes.nil
  | plain c rest ih =>
    simp only [fits, isPlainChar, Bool.and_eq_true, Bool.not_eq_true', decide_eq_true_eq,
      List.mem_cons, not_or] at h
    obtain ⟨⟨hquote, hopen, hclose, -⟩, hrest⟩ := h
    exact Passes.append (Passes.char hquote hopen hclose) (ih hrest)
  | literal string rest ih => exact Passes.append string.passes (ih h)
  | group bracket inside rest ih ihrest =>
    simp only [fits, Bool.and_eq_true] at h
    have hgroup : Passes (bracket.opening :: (inside.text ++ [bracket.closing])) := by
      cases bracket with
      | round => exact (ih h.1).round
      | square =>
        exact Passes.append (Passes.char (by decide) (by decide) (by decide))
          (Passes.append (ih h.1) (Passes.char (by decide) (by decide) (by decide)))
      | curly =>
        exact Passes.append (Passes.char (by decide) (by decide) (by decide))
          (Passes.append (ih h.1) (Passes.char (by decide) (by decide) (by decide)))
    have htext : (Expression.group bracket inside rest).text =
        (bracket.opening :: (inside.text ++ [bracket.closing])) ++ rest.text := by
      simp [text]
    rw [htext]
    exact hgroup.append (ihrest h.2)

theorem Passes.cons {c : Char} {text : List Char} (h : Passes text)
    (hc : isQuote c = false ∧ c ≠ '(' ∧ c ≠ ')') : Passes (c :: text) :=
  Passes.append (Passes.char hc.1 hc.2.1 hc.2.2) h

theorem Key.passes (key : Key w) : Passes key.text := by
  cases key with
  | name identifier => exact identifier.passes
  | quoted literal => exact literal.passes

theorem Ending.passes (ending : Ending) : Passes ending.text := by
  cases ending with
  | gap space => exact Gap.passes space
  | comma before after =>
    exact (Gap.passes before).append ((Gap.passes after).cons (by decide))

theorem Property.passes {property : Property w} (h : property.Fits) : Passes property.text := by
  cases property with
  | pair before key after value =>
    have hvalue := Expression.passes h.2.1
    exact (((Gap.passes before).append key.passes).append (Gap.passes after)).append
      (hvalue.cons (by decide))
  | shorthand before name after =>
    exact ((Gap.passes before).append name.passes).append (Gap.passes after)

theorem Property.passes_joined {properties : List (Property w)}
    (h : ∀ property ∈ properties, property.Fits) : Passes (Property.joined properties) := by
  induction properties with
  | nil => exact Passes.nil
  | cons property properties ih =>
    have hhead := Property.passes (h property List.mem_cons_self)
    cases properties with
    | nil => exact hhead
    | cons next properties =>
      have hrest := ih fun p hp => h p (List.mem_cons_of_mem _ hp)
      exact hhead.append (hrest.cons (by decide))

namespace MethodProperty
variable (property : MethodProperty)

theorem passes_core : Passes property.core := by
  have hname : Passes methodName := Passes.of_forall (by decide)
  have hkey : Passes property.keyText := by
    unfold keyText
    split
    · exact hname
    · rename_i mark _
      apply passes_quoted
      intro depth rest
      have hitems := @closeBrackets_flatMap Item Item.text (methodName.map .plain) mark
        (fun item hitem => closeBrackets_item (by
          obtain ⟨c, hc, rfl⟩ := List.mem_map.mp hitem
          have hletters : ∀ c ∈ methodName, c ≠ backslash ∧ ∀ mark : QuoteMark, c ≠ mark.char := by
            intro c hc
            constructor
            · rintro rfl
              exact absurd hc (by decide)
            · rintro mark rfl
              cases mark <;> exact absurd hc (by decide)
          simp [Item.fits, hletters c hc])) depth rest
      have htext : (methodName.map Item.plain).flatMap Item.text = methodName := by decide
      rwa [htext] at hitems
  exact (hkey.append (Gap.passes _)).append
    (((Gap.passes _).append property.value.passes).cons (by decide))

theorem passes : Passes property.text :=
  ((Gap.passes _).append property.passes_core).append (Gap.passes _)

end MethodProperty

theorem Entry.passes {entry : Entry w} (h : entry.Fits) : Passes entry.text := by
  cases entry with
  | other property => exact Property.passes h
  | method property => exact property.passes

theorem Options.passes {options : Options w} (h : options.Fits) : Passes options.text := by
  have hcurly : Passes ['}'] := Passes.of_forall (by decide)
  cases options with
  | without properties ending =>
    exact (((Property.passes_joined h).append ending.passes).append hcurly).cons (by decide)
  | withMethod front method rest ending =>
    have hfront : Passes (Options.frontText front) :=
      (Passes.flatMap fun entry hentry =>
        (Entry.passes (h.1 entry hentry)).append (Passes.of_forall (by decide))).cons (by decide)
    have hrest : Passes (Options.restText rest ending) :=
      ((Passes.flatMap fun property hproperty =>
        (Property.passes (h.2 property hproperty)).cons (by decide)).append ending.passes).append
          hcurly
    exact (hfront.append method.passes).append hrest

namespace Call
variable {call : Call w} {constants : Dict (List Char) (List Char)}

theorem passes_arguments (hfits : call.Fits) (h : call.Plain constants) : Passes call.arguments := by
  have hfirst : Passes call.first.text := by
    obtain ⟨hplain, -⟩ := h
    cases hcase : call.first with
    | quoted literal => exact literal.passes
    | template string =>
      rw [hcase] at hplain
      exact Template.passes hplain
    | constant name => exact name.passes
  have hoptions : Passes call.optionsText := by
    unfold optionsText
    split
    · exact Passes.nil
    · rename_i before after options hcase
      have hpasses := Options.passes (hfits.2 _ hcase)
      exact (Gap.passes _).append (((Gap.passes _).append hpasses).cons (by decide))
  exact (((Gap.passes _).append hfirst).append hoptions).append call.ending.passes

/-- The scan gives the arguments, up to the bracket that closes the call. -/
theorem jsArguments_eq (hfits : call.Fits) (h : call.Plain constants) (after : List Char) :
    jsArguments (call.arguments ++ ')' :: after) = call.arguments := by
  have hclose : closeBrackets 1 none false (')' :: after) = some [] := by
    rw [closeBrackets, if_neg (by decide), if_neg (by decide), if_pos rfl, if_pos rfl]
  rw [jsArguments, passes_arguments hfits h 1 _ (by decide), hclose, Option.map_some,
    Option.getD_some, List.append_nil]

end Call

theorem Literal.items_text {literal : Literal} (h : ∀ item ∈ literal.items, item.isPlain = true) :
    literal.items.flatMap Item.text = literal.value := by
  have hitem : ∀ item ∈ literal.items, item.text = [item.char] := by
    intro item hmem
    cases item with
    | plain c => rfl
    | escape c => cases h _ hmem
  rw [value, ← List.flatMap_singleton' (literal.items.map Item.char), List.flatMap_map]
  exact List.flatMap_congr hitem

theorem Literal.mark_not_mem {literal : Literal} (h : ∀ item ∈ literal.items, item.isPlain = true) :
    literal.mark.char ∉ literal.value := by
  intro hmem
  obtain ⟨item, hitem, hchar⟩ := List.mem_map.mp hmem
  have hplain := h item hitem
  have hfits := literal.closed item hitem
  cases item with
  | plain c =>
    rw [Item.char] at hchar
    rw [hchar, Item.fits] at hfits
    simp at hfits
  | escape c => cases hplain

/-- A plain literal is cut at its own closing mark. -/
theorem firstValue_literal {constants : Dict (List Char) (List Char)} {literal : Literal}
    (h : ∀ item ∈ literal.items, item.isPlain = true) (rest : List Char) :
    firstValue w constants (literal.text ++ rest) = some literal.value := by
  rw [Literal.text, List.cons_append, List.append_assoc, List.singleton_append, firstValue,
    if_pos literal.mark.isQuote, Literal.items_text h, cutAt_append (Literal.mark_not_mem h)]
  rfl

namespace Template
variable {template : Template}

theorem backtick_not_mem (h : template.Plain) : backtick ∉ template.raw := by
  intro hmem
  obtain ⟨part, hpart, hchar⟩ := List.mem_flatMap.mp hmem
  have hplain := h part hpart
  have hfits := template.closed part hpart
  cases part with
  | plain c =>
    rw [Part.text, List.mem_singleton] at hchar
    rw [← hchar] at hfits
    exact absurd hfits (by decide)
  | escape c => cases hplain
  | hole expression =>
    have hinside : backtick ∈ expression := by
      simpa [Part.text, show backtick ≠ '$' by decide, show backtick ≠ '{' by decide,
        show backtick ≠ '}' by decide] using hchar
    exact absurd (List.all_eq_true.mp hplain _ hinside) (by decide)

theorem firstValue_eq {constants : Dict (List Char) (List Char)} (h : template.Plain)
    (rest : List Char) : firstValue w constants (template.text ++ rest) = some template.raw := by
  rw [text, List.cons_append, List.append_assoc, List.singleton_append, firstValue,
    if_pos (by decide), cutAt_append (backtick_not_mem h)]
  rfl

/-- A dollar sign of the plain text is not followed by a brace. -/
theorem templatePart_plain {c : Char} {rest : List Char}
    (h : c = '$' → rest.head? ≠ some '{') : templatePart (c :: rest) = [] := by
  by_cases hc : c = '$'
  · have hchar : Pattern.char (· == '{') rest = [] := by
      cases rest with
      | nil => rfl
      | cons d rest =>
        have hd : d ≠ '{' := by
          rintro rfl
          exact h hc rfl
        simp [Pattern.char, hd]
    have hdollar : Pattern.char (· == '$') (c :: rest) = [(c, rest)] := by simp [Pattern.char, hc]
    rw [templatePart, Pattern.bind_of_eq hdollar]
    exact Pattern.bind_eq_nil hchar _
  · apply Pattern.bind_eq_nil
    simp [Pattern.char, hc]

theorem first_hole {expression : List Char} (h : (Part.hole expression).isPlain = true)
    (rest : List Char) : Pattern.first templatePart ((Part.hole expression).text ++ rest) =
      some (expression, rest) := by
  have hrun : ∀ c ∈ expression, (c != '{' && c != '}') = true := by
    intro c hc
    have := List.all_eq_true.mp h c hc
    rw [Bool.and_eq_true] at this
    exact this.1
  have hdollar (text : List Char) : Pattern.char (· == '$') ('$' :: text) = [('$', text)] := rfl
  have hbrace (text : List Char) : Pattern.char (· == '{') ('{' :: text) = [('{', text)] := rfl
  have hend : Pattern.char (· == '}') ('}' :: rest) = [('}', rest)] := rfl
  have hclose : ∀ c ∈ ('}' :: rest).head?, (c != '{' && c != '}') = false := by
    intro c hc
    rw [← Option.some.inj hc]
    decide
  rw [Part.text, List.cons_append, List.cons_append, List.append_assoc, List.singleton_append,
    templatePart, Pattern.first_bind_of_eq (hdollar _), Pattern.first_bind_of_eq (hbrace _)]
  apply Pattern.first_greedy hrun hclose
  rw [Pattern.first_bind_of_eq hend]
  rfl

theorem substituteFrom_parts {constants : Dict (List Char) (List Char)} {parts : List Part}
    (hplain : ∀ part ∈ parts, part.isPlain = true)
    (holes : parts.IsChain fun a b => ¬ (a = .plain '$' ∧ b = .plain '{')) (before : List Char) :
    Pattern.substituteFrom (fun _ => true) templatePart (interpolate constants) before
      (parts.flatMap Part.text) = valueOf constants parts := by
  induction parts generalizing before with
  | nil => rfl
  | cons part parts ih =>
    have hrest := ih (fun p hp => hplain p (List.mem_cons_of_mem _ hp)) holes.of_cons
    have hpart := hplain part List.mem_cons_self
    cases part with
    | escape c => cases hpart
    | plain c =>
      have hsilent : Pattern.Silent (fun _ => true) templatePart before [c]
          (parts.flatMap Part.text) := by
        intro a b hab hb _
        have hb' : b = [c] := by
          cases a with
          | nil => simpa using hab
          | cons d a =>
            have hlength := congrArg List.length hab
            have hpos := List.length_pos_iff.mpr hb
            rw [List.length_append, List.length_cons, List.length_singleton] at hlength
            omega
        rw [hb', List.singleton_append]
        apply templatePart_plain
        intro hc hhead
        cases parts with
        | nil => cases hhead
        | cons next parts =>
          cases next with
          | plain d =>
            have hd : d = '{' := by simpa [Part.text] using hhead
            have hpair := (List.isChain_cons_cons.mp holes).1
            rw [hc, hd] at hpair
            exact hpair ⟨rfl, rfl⟩
          | escape d =>
            exact absurd (hplain (.escape d) (by simp)) (by simp [Part.isPlain])
          | hole expression => simp [Part.text] at hhead
      have hkept := Pattern.substituteFrom_silent (f := interpolate constants) hsilent
      rw [List.flatMap_cons, Part.text, hkept, hrest, valueOf]
      rfl
    | hole expression =>
      have hne : (Part.hole expression).text ≠ [] := List.cons_ne_nil _ _
      have hfound : Pattern.substituteFrom (fun _ => true) templatePart (interpolate constants)
          before ((Part.hole expression).text ++ parts.flatMap Part.text) = _ :=
        Pattern.substituteFrom_found hne rfl (first_hole hpart _)
      rw [List.flatMap_cons, hfound, hrest, valueOf]

end Template

namespace Name
variable (name : Name w)

theorem not_space {c : Char} (h : c ∈ name.chars) : isSpace c = false := by
  by_contra hspace
  rw [Bool.not_eq_false] at hspace
  have hword := name.word c h
  rw [w.space c hspace, Bool.false_or, beq_iff_eq] at hword
  rw [hword] at hspace
  exact absurd hspace (by decide)

/-- A name that starts in ASCII is read as a whole. -/
theorem first_jsName {rest : List Char} (hstart : name.chars.head?.any isNameStart = true)
    (hrest : ∀ c ∈ rest.head?, (w.isWord c || c == '$') = false) :
    Pattern.first (jsName w) (name.chars ++ rest) = some (name.chars, rest) := by
  have hword := name.word
  cases hchars : name.chars with
  | nil => exact absurd hchars name.nonempty
  | cons c others =>
    rw [hchars] at hstart hword
    have hc : isNameStart c = true := by simpa using hstart
    have hchar : Pattern.char isNameStart (c :: (others ++ rest)) = [(c, others ++ rest)] := by
      rw [Pattern.char, if_pos hc]
    rw [List.cons_append, jsName, Pattern.first_bind_of_eq hchar]
    exact Pattern.first_greedy (fun d hd => hword d (List.mem_cons_of_mem _ hd)) hrest rfl

end Name

namespace Call
variable {call : Call w} {constants : Dict (List Char) (List Char)}

/-- Behind the first argument stands no character of a name. -/
theorem behind_first (call : Call w) :
    ∀ c ∈ (call.optionsText ++ call.ending.text).head?, (w.isWord c || c == '$') = false := by
  have hspace (c : Char) (h : isSpace c = true) : (w.isWord c || c == '$') = false := by
    rw [w.space c h, Bool.false_or, beq_eq_false_iff_ne]
    rintro rfl
    exact absurd h (by decide)
  have hcomma : (w.isWord ',' || ',' == '$') = false := by
    have hword : w.isWord ',' = false := w.ascii ',' (by decide)
    rw [hword]
    rfl
  have hgap (gap : Gap) (text : List Char) (htext : ∀ c ∈ text.head?, (w.isWord c || c == '$') = false) :
      ∀ c ∈ (gap.chars ++ text).head?, (w.isWord c || c == '$') = false := by
    intro c hc
    cases hchars : gap.chars with
    | nil =>
      rw [hchars] at hc
      exact htext c hc
    | cons d others =>
      rw [hchars] at hc
      rw [← Option.some.inj hc]
      exact hspace d (gap.blank d (hchars ▸ List.mem_cons_self))
  have hcommaHead (text : List Char) :
      ∀ c ∈ (',' :: text).head?, (w.isWord c || c == '$') = false := by
    intro c hc
    rw [← Option.some.inj hc]
    exact hcomma
  unfold optionsText
  cases call.options with
  | none =>
    cases call.ending with
    | gap space =>
      have := hgap space [] (by simp)
      rwa [List.append_nil] at this
    | comma before after => exact hgap before _ (hcommaHead _)
  | some options =>
    obtain ⟨before, after, options⟩ := options
    simp only [List.append_assoc]
    exact hgap before _ (hcommaHead _)

/-- The first argument gives the value that it means. -/
theorem first_value (h : call.first.Plain constants)
    (hrooted : (call.first.value constants).head? = some '/') :
    ∃ raw, firstValue w constants (call.first.text ++ (call.optionsText ++ call.ending.text)) =
        some raw ∧
      Pattern.substitute (fun _ => true) templatePart (interpolate constants) raw =
        call.first.value constants := by
  cases hcase : call.first with
  | quoted literal =>
    rw [hcase] at h
    exact ⟨literal.value, firstValue_literal h.1 _, Pattern.substitute_of_absent h.2⟩
  | template string =>
    rw [hcase] at h
    exact ⟨string.raw, Template.firstValue_eq h _,
      Template.substituteFrom_parts h string.holes []⟩
  | constant name =>
    rw [hcase] at h hrooted
    have hname := name.first_jsName h.1 call.behind_first
    have hquote : ∀ c ∈ name.chars.head?, isQuote c = false := by
      intro c hc
      have hword := name.word c (List.mem_of_mem_head? hc)
      by_contra hquote
      obtain ⟨hascii, hletter, hdigit, hunder, hdollar⟩ :=
        isQuote_ascii (Or.inl (Bool.not_eq_false _ ▸ hquote))
      rw [w.ascii c hascii, hletter, hdigit] at hword
      simp [hunder, hdollar] at hword
    cases hvalue : constants.get? name.chars with
    | none =>
      rw [FirstArgument.value, hvalue] at hrooted
      cases hrooted
    | some value =>
      have habsent := h.2
      rw [hvalue, Option.getD_some] at habsent
      refine ⟨value, ?_, ?_⟩
      · rw [FirstArgument.text]
        cases hchars : name.chars with
        | nil => exact absurd hchars name.nonempty
        | cons c others =>
          rw [hchars] at hquote hname hvalue
          rw [List.cons_append] at hname
          rw [List.cons_append, firstValue, hquote c rfl, if_neg Bool.false_ne_true, hname,
            Option.bind_some]
          exact hvalue
      · rw [Pattern.substitute_of_absent habsent, FirstArgument.value, hvalue, Option.getD_some]

theorem first_not_space (call : Call w) (rest : List Char) :
    ∀ c ∈ (call.first.text ++ rest).head?, isSpace c = false := by
  have hmark (mark : QuoteMark) : isSpace mark.char = false := by cases mark <;> decide
  intro c hc
  cases hcase : call.first with
  | quoted literal =>
    rw [hcase] at hc
    rw [← Option.some.inj hc]
    exact hmark literal.mark
  | template string =>
    rw [hcase] at hc
    rw [← Option.some.inj hc]
    exact hmark .backtick
  | constant name =>
    rw [hcase, FirstArgument.text, List.head?_append_of_ne_nil _ name.nonempty] at hc
    exact name.not_space (List.mem_of_mem_head? hc)

theorem arguments_stripped (call : Call w) : call.arguments.dropWhile isSpace =
    call.first.text ++ (call.optionsText ++ call.ending.text) := by
  rw [arguments, List.append_assoc, List.append_assoc,
    List.dropWhile_append_of_pos call.before.blank]
  have hhead := call.first_not_space (call.optionsText ++ call.ending.text)
  cases htext : call.first.text ++ (call.optionsText ++ call.ending.text) with
  | nil => rfl
  | cons c text =>
    rw [htext] at hhead
    rw [List.dropWhile_cons, hhead c rfl, if_neg Bool.false_ne_true]

end Call

namespace MethodProperty
variable {property : MethodProperty}

/-- The pattern reads the value of a plain method property. -/
theorem first_core (h : property.Plain) (rest : List Char) :
    Pattern.first jsMethod (property.core ++ rest) = some (property.value.value, rest) := by
  obtain ⟨hkey, ⟨hmark, hitems⟩, hne, hletters, -⟩ := h
  have hkeyText : property.keyText = "method".toList := by
    rw [keyText, hkey]
    rfl
  have hcolonHead (text : List Char) : ∀ c ∈ (':' :: text).head?, isSpace c = false := by
    intro c hc
    rw [← Option.some.inj hc]
    decide
  have hmarkHead (text : List Char) :
      ∀ c ∈ (property.value.mark.char :: text).head?, isSpace c = false := by
    intro c hc
    rw [← Option.some.inj hc]
    cases property.value.mark <;> decide
  have hcolon (text : List Char) : Pattern.char (· == ':') (':' :: text) = [(':', text)] := rfl
  have hopen (text : List Char) :
      Pattern.char (fun c => c == apostrophe || c == quotationMark)
        (property.value.mark.char :: text) = [(property.value.mark.char, text)] := by
    cases hcase : property.value.mark with
    | single => rfl
    | double => rfl
    | backtick => exact absurd hcase hmark
  have hclose : Pattern.char (· == property.value.mark.char) (property.value.mark.char :: rest) =
      [(property.value.mark.char, rest)] := by
    simp [Pattern.char]
  have hmarkLetter : ∀ c ∈ (property.value.mark.char :: rest).head?, isAsciiLetter c = false := by
    intro c hc
    rw [← Option.some.inj hc]
    cases property.value.mark <;> decide
  have htext : property.core ++ rest = "method".toList ++ (property.afterKey.chars ++
      ':' :: (property.beforeValue.chars ++ property.value.mark.char ::
        (property.value.value ++ property.value.mark.char :: rest))) := by
    rw [core, hkeyText, Literal.text, Literal.items_text hitems]
    simp
  have hletter : Pattern.literal id "method".toList ("method".toList ++ (property.afterKey.chars ++
      ':' :: (property.beforeValue.chars ++ property.value.mark.char ::
        (property.value.value ++ property.value.mark.char :: rest)))) = [((), _)] :=
    Pattern.literal_append rfl _
  rw [htext, jsMethod, Pattern.first_bind_of_eq hletter]
  apply Pattern.first_greedy property.afterKey.blank (hcolonHead _)
  rw [Pattern.first_bind_of_eq (hcolon _)]
  apply Pattern.first_greedy property.beforeValue.blank (hmarkHead _)
  rw [Pattern.first_bind_of_eq (hopen _)]
  apply Pattern.first_greedy1 hne hletters hmarkLetter
  rw [Pattern.first_bind_of_eq hclose]
  rfl

end MethodProperty

theorem Options.frontText_last (front : List (Entry w)) :
    ∀ c ∈ (Options.frontText front).getLast?, c = '{' ∨ c = ',' := by
  intro c hc
  rcases List.eq_nil_or_concat front with hnil | ⟨init, entry, hinit⟩
  · rw [hnil] at hc
    exact Or.inl (Option.some.inj hc).symm
  · rw [hinit, frontText, List.concat_eq_append, List.flatMap_append, List.flatMap_singleton,
      ← List.append_assoc, ← List.cons_append, List.getLast?_append_of_ne_nil _ (by simp)] at hc
    exact Or.inr (Option.some.inj hc).symm

namespace Call
variable {call : Call w} {constants : Dict (List Char) (List Char)}

/-- The key of the method property starts a word. -/
theorem methodFront_last (call : Call w) (before after : Gap) (front : List (Entry w))
    (method : MethodProperty) :
    w.wordStart (call.methodFront before after front method).getLast? = true := by
  have hword (c : Char) (h : c ∈ (call.methodFront before after front method).getLast?) :
      w.isWord c = false := by
    have htext : call.methodFront before after front method =
        (call.before.chars ++ call.first.text ++ before.chars ++ ',' :: after.chars ++
          Options.frontText front) ++ method.before.chars := by
      simp [methodFront]
    rw [htext] at h
    by_cases hgap : method.before.chars = []
    · have hne : Options.frontText front ≠ [] := List.cons_ne_nil _ _
      rw [hgap, List.append_nil, List.getLast?_append_of_ne_nil _ hne] at h
      rcases Options.frontText_last front c h with rfl | rfl
      · exact w.ascii '{' (by decide)
      · exact w.ascii ',' (by decide)
    · rw [List.getLast?_append_of_ne_nil _ hgap] at h
      exact w.space c (method.before.blank c (List.mem_of_mem_getLast? h))
  unfold WordChars.wordStart
  cases hlast : (call.methodFront before after front method).getLast? with
  | none => rfl
  | some c => simp [hword c hlast]

/-- The method that the gate reads is the one of the options. -/
theorem method_found (h : call.MethodOwn) :
    readMethod (Pattern.findAll w.wordStart jsMethod call.arguments) = call.methodValue ∧
    call.methodValue ∈ httpMethods := by
  have hnone (hsilent : Pattern.Silent w.wordStart jsMethod [] call.arguments []) :
      Pattern.findAll w.wordStart jsMethod call.arguments = [] := by
    have hmatches := Pattern.matchesFrom_silent hsilent
    rw [List.append_nil] at hmatches
    rw [Pattern.findAll, Pattern.findIter, hmatches]
    rfl
  unfold MethodOwn at h
  split at h
  · rename_i before after front method rest ending hoptions
    obtain ⟨hplain, hsilent⟩ := h
    have htext : call.arguments = call.methodFront before after front method ++ (method.core ++
        (method.after.chars ++ Options.restText rest ending ++ call.ending.text)) := by
      rw [arguments, optionsText, hoptions]
      simp [methodFront, Options.text, MethodProperty.text]
    have hne : method.core ≠ [] := by simp [MethodProperty.core]
    have hfound := Pattern.matchesFrom_found hne (call.methodFront_last before after front method)
      (MethodProperty.first_core hplain
        (method.after.chars ++ Options.restText rest ending ++ call.ending.text))
    have hmatches := Pattern.matchesFrom_silent hsilent
    rw [List.nil_append] at hmatches
    have hvalue : call.methodValue = String.ofList (upper method.value.value) := by
      rw [methodValue, hoptions]
      rfl
    rw [Pattern.findAll, Pattern.findIter, htext, hmatches, hfound, List.map_cons, hvalue]
    exact ⟨rfl, hplain.2.2.2.2⟩
  · rename_i hoptions
    have hvalue : call.methodValue = "GET" := by
      unfold methodValue
      cases hcase : call.options with
      | none => rfl
      | some options =>
        obtain ⟨before, after, options⟩ := options
        cases options with
        | without => rfl
        | withMethod front method rest ending =>
          exact absurd hcase (hoptions before after front method rest ending)
    rw [hnone h, hvalue]
    exact ⟨rfl, by decide⟩

/-- The gate reads one operation at the call, the one that the call means. -/
theorem jsOperation_eq (hfits : call.Fits) (h : call.Plain constants)
    (hrooted : (call.first.value constants).head? = some '/') (before after : List Char) :
    jsOperation w constants before (call.arguments ++ ')' :: after) =
      some (call.operation constants before) := by
  obtain ⟨raw, hraw, hvalue⟩ := first_value h.1 hrooted
  obtain ⟨hmethod, hknown⟩ := method_found h.2
  unfold jsOperation
  simp only [jsArguments_eq hfits h, arguments_stripped, hraw, Option.bind_eq_bind,
    Option.bind_some, hvalue]
  rw [hmethod, if_pos ⟨hrooted, hknown⟩]
  rfl

theorem first_head (call : Call w) (rest : List Char) :
    Pattern.first jsCall (call.head ++ rest) = some ((), rest) := by
  have hword (text : List Char) : Pattern.first
      (Pattern.either (Pattern.literal id "request".toList) (Pattern.literal id "fetch".toList))
        (call.word.chars ++ text) = some ((), text) := by
    have hliteral (word : List Char) : Pattern.first (Pattern.literal id word) (word ++ text) =
        some ((), text) := by
      rw [Pattern.first, Pattern.literal_append rfl]
      rfl
    cases call.word with
    | request => exact Pattern.first_either_left (hliteral _)
    | fetch =>
      have hother : Pattern.literal id "request".toList ("fetch".toList ++ text) = [] := by
        apply Pattern.literal_eq_nil
        intro c hc
        rw [← Option.some.inj hc]
        decide
      exact (Pattern.first_either_right hother).trans (hliteral _)
  have hbracket : ∀ c ∈ ('(' :: rest).head?, isSpace c = false := by
    intro c hc
    rw [← Option.some.inj hc]
    decide
  have hopen : Pattern.char (· == '(') ('(' :: rest) = [('(', rest)] := rfl
  rw [head, List.append_assoc, List.append_assoc, List.singleton_append]
  apply Pattern.first_bind_of_first (hword _)
  apply Pattern.first_greedy call.gap.blank hbracket
  rw [Pattern.first_bind_of_eq hopen]
  rfl

end Call

/-- The calls that the pattern finds are those of the source, in order. -/
theorem operations_from {constants : Dict (List Char) (List Char)} {sites : List (Site w)}
    {tail before : List Char} (hjoined : Joined sites tail) (hwords : AtWords before sites)
    (hfits : ∀ site ∈ sites, site.call.Fits)
    (hrooted : ∀ site ∈ sites, (site.call.first.value constants).head? = some '/')
    (h : SitesOwn constants before sites tail) :
    (Pattern.matchesFrom w.wordStart jsCall before (sitesText sites tail)).filterMap
        (fun found => jsOperation w constants found.1 found.2.2) =
      JsSource.operationsFrom constants before sites := by
  induction sites generalizing before with
  | nil =>
    have hmatches := Pattern.matchesFrom_silent h
    rw [List.append_nil] at hmatches
    rw [sitesText, hmatches]
    rfl
  | cons site sites ih =>
    obtain ⟨hsilent, hplain, hrest⟩ := h
    obtain ⟨htext, hjoined⟩ := hjoined
    have hne : site.call.head ≠ [] := by simp [Call.head]
    have hoperation := Call.jsOperation_eq (hfits site List.mem_cons_self) hplain
      (hrooted site List.mem_cons_self) (before ++ site.front) site.after
    rw [← htext] at hoperation
    rw [sitesText, Pattern.matchesFrom_silent hsilent,
      Pattern.matchesFrom_found hne hwords.1 (site.call.first_head _), List.filterMap_cons,
      hoperation, JsSource.operationsFrom]
    simp only
    rw [ih hjoined hwords.2 (fun s hs => hfits s (List.mem_cons_of_mem _ hs))
        (fun s hs => hrooted s (List.mem_cons_of_mem _ hs)) hrest]

namespace Declaration
variable {declaration : Declaration w}

/-- A plain declaration gives its name and its value. -/
theorem first_text (h : declaration.Plain) (rest : List Char) :
    Pattern.first (jsConst w) (declaration.text ++ rest) = some (declaration.binding, rest) := by
  obtain ⟨⟨hmark, hitems⟩, hname, hslash, hvalue⟩ := h
  obtain ⟨others, hothers⟩ : ∃ others, declaration.literal.value = '/' :: others :=
    List.head?_eq_some_iff.mp hslash
  have htext : declaration.text ++ rest = constWord ++ (declaration.space.chars ++
      (declaration.name.chars ++ (declaration.before.chars ++ '=' :: (declaration.after.chars ++
        declaration.literal.mark.char :: '/' ::
          (others ++ declaration.literal.mark.char :: rest))))) := by
    rw [text, Literal.text, Literal.items_text hitems, hothers]
    simp only [List.append_assoc, List.cons_append, List.nil_append]
  have hliteral (text : List Char) :
      Pattern.literal id constWord (constWord ++ text) = [((), text)] :=
    Pattern.literal_append rfl text
  have hnameHead (text : List Char) :
      ∀ c ∈ (declaration.name.chars ++ text).head?, isSpace c = false := by
    intro c hc
    rw [List.head?_append_of_ne_nil _ declaration.name.nonempty] at hc
    exact declaration.name.not_space (List.mem_of_mem_head? hc)
  have hequals (text : List Char) : Pattern.char (· == '=') ('=' :: text) = [('=', text)] := rfl
  have hequalsHead (text : List Char) : ∀ c ∈ ('=' :: text).head?, isSpace c = false := by
    intro c hc
    rw [← Option.some.inj hc]
    decide
  have hnameEnd (text : List Char) : ∀ c ∈ (declaration.before.chars ++ '=' :: text).head?,
      (w.isWord c || c == '$') = false := by
    intro c hc
    cases hgap : declaration.before.chars with
    | nil =>
      rw [hgap] at hc
      rw [← Option.some.inj hc]
      have hword : w.isWord '=' = false := w.ascii '=' (by decide)
      rw [hword]
      rfl
    | cons d more =>
      rw [hgap] at hc
      rw [← Option.some.inj hc]
      have hspace := declaration.before.blank d (hgap ▸ List.mem_cons_self)
      rw [w.space d hspace, Bool.false_or, beq_eq_false_iff_ne]
      rintro rfl
      exact absurd hspace (by decide)
  have hmarkHead (text : List Char) :
      ∀ c ∈ (declaration.literal.mark.char :: text).head?, isSpace c = false := by
    intro c hc
    rw [← Option.some.inj hc]
    cases declaration.literal.mark <;> decide
  have hopen (text : List Char) :
      Pattern.char (fun c => c == apostrophe || c == quotationMark)
        (declaration.literal.mark.char :: text) = [(declaration.literal.mark.char, text)] := by
    cases hcase : declaration.literal.mark with
    | single => rfl
    | double => rfl
    | backtick => exact absurd hcase hmark
  have hslashChar (text : List Char) : Pattern.char (· == '/') ('/' :: text) = [('/', text)] := rfl
  have hclose : Pattern.char (· == declaration.literal.mark.char)
      (declaration.literal.mark.char :: rest) = [(declaration.literal.mark.char, rest)] := by
    simp [Pattern.char]
  have hmarkEnd : ∀ c ∈ (declaration.literal.mark.char :: rest).head?,
      (c != apostrophe && c != quotationMark && c != '\r' && c != '\n') = false := by
    intro c hc
    rw [← Option.some.inj hc]
    cases hcase : declaration.literal.mark with
    | single => decide
    | double => decide
    | backtick => exact absurd hcase hmark
  have hrun : ∀ c ∈ others,
      (c != apostrophe && c != quotationMark && c != '\r' && c != '\n') = true :=
    fun c hc => hvalue c (hothers ▸ List.mem_cons_of_mem _ hc)
  rw [htext, jsConst, Pattern.first_bind_of_eq (hliteral _)]
  apply Pattern.first_greedy1 declaration.space.nonempty declaration.space.blank (hnameHead _)
  apply Pattern.first_bind_of_first (declaration.name.first_jsName hname (hnameEnd _))
  apply Pattern.first_greedy declaration.before.blank (hequalsHead _)
  rw [Pattern.first_bind_of_eq (hequals _)]
  apply Pattern.first_greedy declaration.after.blank (hmarkHead _)
  rw [Pattern.first_bind_of_eq (hopen _), Pattern.first_bind_of_eq (hslashChar _)]
  apply Pattern.first_greedy hrun hmarkEnd
  rw [Pattern.first_bind_of_eq hclose, binding, hothers]
  rfl

end Declaration

/-- The constants that the pattern finds are the declared ones, in order. -/
theorem declarations_from {declarations : List (List Char × Declaration w)}
    {tail before : List Char} (hwords : DeclaredAtWords before declarations)
    (h : DeclarationsOwn before declarations tail) :
    (Pattern.matchesFrom w.wordStart (jsConst w) before (declarationsText declarations tail)).map
        (·.2.1) = declarations.map (·.2.binding) := by
  induction declarations generalizing before with
  | nil =>
    have hmatches := Pattern.matchesFrom_silent h
    rw [List.append_nil] at hmatches
    rw [declarationsText, hmatches]
    rfl
  | cons entry declarations ih =>
    obtain ⟨hsilent, hplain, hrest⟩ := h
    have hne : entry.2.text ≠ [] := by
      rw [Declaration.text]
      exact List.append_ne_nil_of_right_ne_nil _ (List.cons_ne_nil _ _)
    rw [declarationsText, Pattern.matchesFrom_silent hsilent,
      Pattern.matchesFrom_found hne hwords.1 (Declaration.first_text hplain _), List.map_cons,
      ih hwords.2 hrest, List.map_cons]

namespace JsSource
variable {source : JsSource w}

theorem jsConstants_eq (h : source.Own) :
    jsConstants w (sitesText source.sites source.tail) = source.constants := by
  have hfound := declarations_from source.words.2 h.2
  rw [source.same] at hfound
  rw [jsConstants, Pattern.findAll, Pattern.findIter, hfound]
  rfl

/-- The gate reads the operations of the source, one for each call. -/
theorem jsCalls_eq (h : source.Own) : jsCalls w source.text = source.operations := by
  have hcalls := operations_from source.joined source.words.1 source.fits source.rooted h.1
  rw [jsCalls, text, String.toList_ofList, jsConstants_eq h]
  exact hcalls

end JsSource

theorem drift_mem_fileIssues {reader : PythonReader} {files : String → Option String}
    {interfaceId providerPath path : String} {routes : List HttpRoute} {owned : String}
    {call : HttpOperation} :
    .drift path interfaceId providerPath routes call ∈
        fileIssues w reader files interfaceId providerPath routes owned ↔
      path = removePrefix owned "workspace/" ∧ ∃ text, files path = some text ∧
        call ∈ consumerCalls w reader path text ∧
        routes.any (routeMatches call.toHttpRoute) = false := by
  unfold fileIssues
  constructor
  · intro h
    cases hfile : files (removePrefix owned "workspace/") with
    | none => simp [hfile] at h
    | some text =>
      simp only [hfile] at h
      obtain ⟨found, hfound, hissue⟩ := List.mem_map.mp h
      injection hissue with hpath _ _ _ hcall
      rw [List.mem_filter, hcall, Bool.not_eq_true'] at hfound
      rw [← hpath]
      exact ⟨rfl, text, hfile, hfound.1, hfound.2⟩
  · intro ⟨hpath, text, hfile, hcall, hroutes⟩
    rw [hpath] at hfile hcall
    simp only [hfile]
    rw [hpath]
    exact List.mem_map_of_mem (List.mem_filter.mpr ⟨hcall, by rw [hroutes]; rfl⟩)

/-- A drift is reported for an interface whose provider is read, a unit that consumes
it and one of the files of the unit. -/
theorem drift_mem_httpIssues {reader : PythonReader} {files : String → Option String}
    {contract : Architecture.ImplementationContract} {path interfaceId providerPath : String}
    {routes : List HttpRoute} {call : HttpOperation} :
    .drift path interfaceId providerPath routes call ∈ httpIssues w reader files contract ↔
      ∃ interface ∈ contract.interfaces, interface.interfaceId = interfaceId ∧
        (∃ provided, providerRoutes reader files interface = some (providerPath, provided) ∧
          expectedRoutes interface provided = routes) ∧
        ∃ unit ∈ contract.units, interfaceId ∈ unit.consumesInterfaces ∧
          ∃ owned ∈ unit.ownedFiles, .drift path interfaceId providerPath routes call ∈
            fileIssues w reader files interfaceId providerPath routes owned := by
  unfold httpIssues
  rw [List.mem_flatMap]
  constructor
  · rintro ⟨interface, hinterface, hissue⟩
    unfold interfaceIssues at hissue
    cases hprovider : providerRoutes reader files interface with
    | none => simp [hprovider] at hissue
    | some provider =>
      obtain ⟨provided, routesRead⟩ := provider
      simp only [hprovider, List.mem_append, List.mem_map, List.mem_flatMap, List.mem_filter,
        decide_eq_true_eq] at hissue
      rcases hissue with ⟨operation, -, hsame⟩ | ⟨unit, ⟨hunit, hconsumes⟩, owned, howned, hfile⟩
      · cases hsame
      · have hshape := hfile
        unfold fileIssues at hshape
        simp only at hshape
        split at hshape
        · cases hshape
        · obtain ⟨found, -, hsame⟩ := List.mem_map.mp hshape
          injection hsame with _ hid hprovided hroutes _
          rw [hid, hprovided, hroutes] at hfile
          rw [hid] at hconsumes
          exact ⟨interface, hinterface, hid, ⟨routesRead, by rw [hprovided] at hprovider; exact hprovider, hroutes⟩,
            unit, hunit, hconsumes, owned, howned, hfile⟩
  · rintro ⟨interface, hinterface, hid, ⟨provided, hprovider, hroutes⟩, unit, hunit, hconsumes,
      owned, howned, hfile⟩
    refine ⟨interface, hinterface, ?_⟩
    unfold interfaceIssues
    simp only [hprovider, List.mem_append, List.mem_flatMap, List.mem_filter, decide_eq_true_eq]
    refine Or.inr ⟨unit, ⟨hunit, hid ▸ hconsumes⟩, owned, howned, ?_⟩
    rw [hid, hroutes]
    exact hfile

section items

def noSpace : Gap := { chars := [] }

def blankGap : Gap := { chars := [' '] }

def apiName : Name asciiWords := { chars := "API".toList }

/-- A literal of plain characters. -/
def plainLiteral (mark : QuoteMark) (text : String)
    (closed : ∀ item ∈ text.toList.map Item.plain, item.fits mark = true := by decide) : Literal where
  mark := mark
  items := text.toList.map .plain
  closed := closed

/-- `{ method: 'PUT', body: f('(') }`. -/
def putOptions : Options asciiWords :=
  .withMethod []
    { before := noSpace, keyMark := none, afterKey := noSpace, beforeValue := blankGap
      value := plainLiteral .single "PUT", after := noSpace }
    [.pair blankGap (.name { chars := "body".toList }) noSpace
      (.plain ' ' (.plain 'f' (.group .round (.literal (plainLiteral .single "(") .done) .done)))]
    (.gap noSpace)

/-- The arguments of the second call, with the closing bracket. -/
def putArguments : List Char :=
  backtick :: "$\x7bAPI\x7d/$\x7b id \x7d?all=1".toList ++
    backtick :: ", \x7bmethod: 'PUT', body: f('(')\x7d)".toList

def itemsSource : JsSource asciiWords where
  sites := [
    { front := "const API = '/items'\n".toList
      call := { word := .request, gap := noSpace, before := noSpace, first := .constant apiName
                ending := .gap noSpace }
      after := "\nfetch(".toList ++ putArguments },
    { front := "API)\n".toList
      call := { word := .fetch, gap := noSpace, before := noSpace
                first := .template {
                  parts := [.hole "API".toList, .plain '/', .hole " id ".toList] ++
                    "?all=1".toList.map .plain }
                options := some (noSpace, blankGap, putOptions), ending := .gap noSpace }
      after := [] }]
  tail := putArguments
  declarations := [([], { space := { chars := [' '] }, name := apiName, before := blankGap
                          after := blankGap, literal := plainLiteral .single "/items" })]
  rest := "\nrequest(API)\nfetch(".toList ++ putArguments

/-- An interface of one file with one consumer. -/
def itemsContract : Architecture.ImplementationContract where
  schemaVersion := 1
  units := [
    ⟨{ unitId := "api", layer := "transport", objective := "serve items"
       allowedPaths := ["backend/main.py"], ownedFiles := ["backend/main.py"] }, by decide⟩,
    ⟨{ unitId := "frontend", layer := "presentation", objective := "show items"
       allowedPaths := ["frontend/App.jsx"], ownedFiles := ["frontend/App.jsx"]
       consumesInterfaces := ["items.api"] }, by decide⟩]
  interfaces := [{ interfaceId := "items.api", kind := "api", name := "Items", ownerUnit := "api"
                   ownerFile := some "backend/main.py" }]
  accepted := by decide +kernel

/-- The decorators of a provider with one route. -/
def itemsReader : PythonReader where
  routes := fun _ => some [{ method := "GET", path := "/items" }]
  calls := fun _ => some []

def itemsFiles (path : String) : Option String :=
  if path = "backend/main.py" then
    some "app = FastAPI()\n@app.get('/items')\ndef items(): pass\n"
  else if path = "frontend/App.jsx" then some itemsSource.text
  else none

/-- `fetch('/items', {body: pack({method: 'PUT'})})`. -/
def nestedSource : JsSource asciiWords where
  sites := [
    { front := []
      call := { word := .fetch, gap := noSpace, before := noSpace
                first := .quoted (plainLiteral .single "/items")
                options := some (noSpace, blankGap, .without
                  [.pair noSpace (.name { chars := "body".toList }) noSpace
                    (.plain ' ' (.plain 'p' (.group .round (.group .curly
                      (.plain 'm' (.plain 'e' (.plain 't' (.plain 'h' (.plain 'o' (.plain 'd'
                        (.plain ':' (.plain ' ' (.literal (plainLiteral .single "PUT") .done)))))))))
                      .done) .done)))]
                  (.gap noSpace))
                ending := .gap noSpace }
      after := [] }]
  tail := "'/items', \x7bbody: p(\x7bmethod: 'PUT'\x7d)\x7d)".toList
  declarations := []
  rest := "fetch('/items', \x7bbody: p(\x7bmethod: 'PUT'\x7d)\x7d)".toList

/-- A string argument is cut at its first escaped mark of the same kind. -/
example : (jsCalls asciiWords (String.ofList ("fetch('/items/it".toList ++
    backslash :: "'s')".toList))).map (·.path) = [String.ofList ("/items/it".toList ++ [backslash])] := by
  decide +kernel

end items

end ProjectOS.Code.Js
