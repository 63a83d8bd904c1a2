/-
**Why a token ends a request.**

A report stops at the first token that ends the request. Three reasons can hold of a token in the
stream of all tokens (`Reporting.Holds`), each of which looks at that token and those before it
only; of several the first in their order counts (`Reporting.Prevails`).

* `Reporting.holds_append`: tokens that come later change nothing about an earlier one;
* `Reporting.verdict_prevails`: the judgement of a token names the reason that counts;
* `Reporting.scan_yields_due`: a scan that begins anywhere before the end finds it. It stops only
  where the length rule has to add up more than 64 bits.
-/

import ContinuousBatching.Proofs.Request.Stream

namespace ContinuousBatching

/-- Looking for a part finds exactly what is there without gaps. -/
theorem occursIn_iff {part : List Char} : ∀ {text}, occursIn part text = true ↔ part <:+: text
  | [] => by rw [occursIn, List.isEmpty_iff, List.infix_nil]
  | c :: text => by
      rw [occursIn, Bool.or_eq_true, List.isPrefixOf_iff_prefix, occursIn_iff, List.infix_cons_iff]

namespace Reporting

/-- Whether a reason to finish holds at place `i` of all tokens. -/
def Holds (rules : Reporting) (tokens : List TokenId) (i : Nat) : FinishReason → Prop
  | .stop => ∃ token, tokens[i]? = some token ∧
      (token ∈ rules.settings.stopTokens ∨
        ∃ text, rules.tokenizer.decode (tokens.take (i + 1)) = .ok text ∧
          ∃ part ∈ rules.settings.stopTexts, part ≠ "" ∧ part.toList <:+: text.toList)
  | .endOfSequence => rules.settings.ignoreEos = false ∧
      ∃ token, tokens[i]? = some token ∧ rules.tokenizer.eos? = some token
  | .length => i < tokens.length ∧
      (rules.maxLength ≤ rules.inputLength + i + 1 ∨ rules.settings.maxTokens ≤ i + 1)
  | .abort => False

/-- The reason that counts at a place: what stops comes first, then the end of a sequence, then a
limit of length. -/
def Prevails (rules : Reporting) (tokens : List TokenId) (i : Nat) : FinishReason → Prop
  | .stop => rules.Holds tokens i .stop
  | .endOfSequence => ¬rules.Holds tokens i .stop ∧ rules.Holds tokens i .endOfSequence
  | .length => ¬rules.Holds tokens i .stop ∧ ¬rules.Holds tokens i .endOfSequence ∧
      rules.Holds tokens i .length
  | .abort => False

/-- Nothing ends the request before place `i`. -/
def OpenBefore (rules : Reporting) (tokens : List TokenId) (i : Nat) : Prop :=
  ∀ j < i, ∀ reason, ¬rules.Holds tokens j reason

/-- The token in place `f` is the first one that ends the request. -/
def EndsAt (rules : Reporting) (tokens : List TokenId) (f : Nat) : Prop :=
  (∃ reason, rules.Holds tokens f reason) ∧ rules.OpenBefore tokens f

/-- The length rule decides about the token in place `i`, and adds up more than 64 bits. -/
def Overlong (rules : Reporting) (tokens : List TokenId) (i : Nat) : Prop :=
  i < tokens.length ∧ rules.OpenBefore tokens i ∧ ¬rules.Holds tokens i .stop ∧
    ¬rules.Holds tokens i .endOfSequence ∧ Count.limit ≤ rules.inputLength + (i + 1)

/-- The tokenizer decodes every first part of the stream and spells out all its samples. -/
structure Legible (tokenizer : Tokenizer) (count : Nat) (stream : List Sample) : Prop where
  decodes : ∀ n, ∃ text, tokenizer.decode ((stream.map Sample.token).take n) = .ok text
  spells : ∀ sample ∈ stream, ∃ text, sample.toJson tokenizer count = .ok text

/-- The first part of a legible stream is legible. -/
theorem Legible.left {tokenizer : Tokenizer} {count : Nat} {stream more : List Sample}
    (legible : Legible tokenizer count (stream ++ more)) : Legible tokenizer count stream where
  decodes := by
    intro n
    obtain ⟨text, decoded⟩ := legible.decodes (min n (stream.map Sample.token).length)
    rw [List.map_append, List.take_append_of_le_length (Nat.min_le_right ..), ← List.take_take,
      List.take_length] at decoded
    exact ⟨text, decoded⟩
  spells := fun sample member => legible.spells sample (List.mem_append_left _ member)

section Reasons

variable {rules : Reporting} {tokens : List TokenId} {i f : Nat} {token : TokenId}

theorem EndsAt.unique {g : Nat} (first : rules.EndsAt tokens f) (other : rules.EndsAt tokens g) :
    f = g := by
  obtain ⟨⟨reason, holds⟩, before⟩ := first
  obtain ⟨⟨reason', holds'⟩, before'⟩ := other
  rcases Nat.lt_trichotomy f g with less | same | greater
  · exact absurd holds (before' f less reason)
  · exact same
  · exact absurd holds' (before g greater reason')

theorem Prevails.unique {first second : FinishReason} (one : rules.Prevails tokens i first)
    (two : rules.Prevails tokens i second) : first = second := by
  cases first <;> cases second <;> simp_all [Prevails]

/-- Tokens that come later change nothing about an earlier one. -/
theorem holds_append {more : List TokenId} (there : i < tokens.length) {reason : FinishReason} :
    rules.Holds (tokens ++ more) i reason ↔ rules.Holds tokens i reason := by
  cases reason with
  | stop =>
      unfold Holds
      rw [List.getElem?_append_left there, List.take_append_of_le_length there]
  | endOfSequence =>
      unfold Holds
      rw [List.getElem?_append_left there]
  | length =>
      simp only [Holds, List.length_append, there, Nat.lt_add_right, true_and]
  | abort => exact Iff.rfl

theorem openBefore_append {more : List TokenId} (within : i ≤ tokens.length) :
    rules.OpenBefore (tokens ++ more) i ↔ rules.OpenBefore tokens i :=
  forall₂_congr fun _ less =>
    forall_congr' fun _ => not_congr (holds_append (Nat.lt_of_lt_of_le less within))

theorem endsAt_append {more : List TokenId} (there : f < tokens.length) :
    rules.EndsAt (tokens ++ more) f ↔ rules.EndsAt tokens f :=
  and_congr (exists_congr fun _ => holds_append there)
    (openBefore_append (Nat.le_of_lt there))

theorem prevails_append {more : List TokenId} (there : i < tokens.length) {reason : FinishReason} :
    rules.Prevails (tokens ++ more) i reason ↔ rules.Prevails tokens i reason := by
  cases reason <;> simp only [Prevails, holds_append there]

/-- The check for stop tokens and stop texts. -/
theorem stops_eq (there : tokens[i]? = some token)
    (decodes : ∃ text, rules.tokenizer.decode (tokens.take (i + 1)) = .ok text) :
    ∃ answer, rules.stops (tokens.take (i + 1)) token = .ok answer ∧
      (answer = true ↔ rules.Holds tokens i .stop) := by
  obtain ⟨text, decoded⟩ := decodes
  unfold stops stopTextOccurs Holds
  rw [decoded, there]
  by_cases listed : token ∈ rules.settings.stopTokens
  · rw [if_pos listed]
    exact ⟨true, rfl, by simp [listed]⟩
  · rw [if_neg listed]
    by_cases none : rules.settings.stopTexts = []
    · rw [none]
      exact ⟨false, rfl, by simp [listed]⟩
    · rw [if_neg (by simpa using none)]
      refine ⟨_, rfl, ?_⟩
      simp [listed, occursIn_iff]

theorem eos?_iff (there : tokens[i]? = some token) :
    rules.eos? = some token ↔ rules.Holds tokens i .endOfSequence := by
  unfold eos? Holds
  rw [there]
  cases rules.settings.ignoreEos <;> simp

/-- **The judgement of a token** names the reason that counts; it stops only where the length rule
adds up more than 64 bits. -/
theorem verdict_prevails (there : tokens[i]? = some token) (before : rules.OpenBefore tokens i)
    (decodes : ∃ text, rules.tokenizer.decode (tokens.take (i + 1)) = .ok text) :
    Yields (rules.verdict (tokens.take (i + 1)) token)
      (fun reason? => (reason? = none → rules.OpenBefore tokens (i + 1)) ∧
        ∀ reason, reason? = some reason →
          rules.EndsAt tokens i ∧ rules.Prevails tokens i reason)
      (fun stop => stop = .fault .overflow ∧ rules.Overlong tokens i) := by
  obtain ⟨inside, _⟩ := List.getElem?_eq_some_iff.mp there
  have length : (tokens.take (i + 1)).length = i + 1 :=
    List.length_take_of_le inside
  have ends : ∀ {reason}, rules.Holds tokens i reason → rules.EndsAt tokens i :=
    fun holds => ⟨⟨_, holds⟩, before⟩
  obtain ⟨answer, asked, stops⟩ := stops_eq there decodes
  unfold verdict
  rw [asked, length]
  show Yields (if answer = true then _ else _) _ _
  by_cases stopped : answer = true
  · rw [if_pos stopped]
    refine ⟨fun goesOn => (by cases goesOn), fun reason same => ?_⟩
    cases same
    exact ⟨ends (stops.mp stopped), stops.mp stopped⟩
  · rw [if_neg stopped]
    by_cases eos : rules.eos? = some token
    · rw [if_pos eos]
      refine ⟨fun goesOn => (by cases goesOn), fun reason same => ?_⟩
      cases same
      exact ⟨ends ((eos?_iff there).mp eos), fun holds => stopped (stops.mpr holds),
        (eos?_iff there).mp eos⟩
    · have noStop : ¬rules.Holds tokens i .stop := fun holds => stopped (stops.mpr holds)
      have noEos : ¬rules.Holds tokens i .endOfSequence :=
        fun holds => eos ((eos?_iff there).mpr holds)
      rw [if_neg eos, yields_bind]
      refine (Count.add_yields _ _).mono ?_
        (fun stop large => ⟨large.1, inside, before, noStop, noEos, large.2⟩)
      rintro total ⟨rfl, _⟩
      by_cases long : rules.maxLength ≤ rules.inputLength + (i + 1) ∨
          rules.settings.maxTokens ≤ i + 1
      · have holds : rules.Holds tokens i .length := ⟨inside, long⟩
        rw [if_pos long]
        refine ⟨fun goesOn => (by cases goesOn), fun reason same => ?_⟩
        cases same
        exact ⟨ends holds, noStop, noEos, holds⟩
      · rw [if_neg long]
        refine ⟨fun _ j less reason holds => ?_, fun reason same => (by cases same)⟩
        rcases Nat.lt_succ_iff_lt_or_eq.mp less with earlier | rfl
        · exact before j earlier reason holds
        · cases reason with
          | stop => exact noStop holds
          | endOfSequence => exact noEos holds
          | length => exact long holds.2
          | abort => exact holds

end Reasons

/-! ### A scan finds the end -/

/-- What a scan takes up of a stream, from place `returned` to place `through`. -/
structure Scanned (rules : Reporting) (stream : List Sample) (returned through : Nat)
    (delta : Delta) : Prop where
  begins : returned ≤ through
  within : through ≤ stream.length
  tokens : delta.tokens = ((stream.take through).drop returned).map Sample.token
  logprobs : if rules.withLogprobs then ∃ texts, delta.logprobs = some texts ∧
      Spelled rules.tokenizer rules.settings.logprobs ((stream.take through).drop returned) texts
    else delta.logprobs = none
  goesOn : delta.finish = none →
    through = stream.length ∧ rules.OpenBefore (stream.map Sample.token) through
  ends : ∀ reason, delta.finish = some reason → ∃ f, returned ≤ f ∧ through = f + 1 ∧
    rules.EndsAt (stream.map Sample.token) f ∧ rules.Prevails (stream.map Sample.token) f reason

/-- The part of a list between two places begins with the element in the first one. -/
theorem drop_take_cons {α : Type} {list rest : List α} {a : α} {n m : Nat}
    (split : list.drop n = a :: rest) (less : n < m) :
    (list.take m).drop n = a :: (list.take m).drop (n + 1) := by
  have following : list.drop (n + 1) = rest := by
    rw [← List.drop_drop, split]
    rfl
  obtain ⟨k, rfl⟩ := Nat.exists_eq_add_of_lt less
  rw [List.drop_take, List.drop_take, split, following, show n + k + 1 - n = k + 1 by omega,
    show n + k + 1 - (n + 1) = k by omega, List.take_succ_cons]

/-- **A scan** that begins at a place before which nothing ends the request goes on to the first
token that does. -/
theorem scan_yields_due (rules : Reporting) {stream : List Sample}
    (legible : Legible rules.tokenizer rules.settings.logprobs stream) :
    ∀ (rest : List Sample) (returned : Nat), stream.drop returned = rest →
      returned ≤ stream.length → rules.OpenBefore (stream.map Sample.token) returned →
      Yields (rules.scan ((stream.take returned).map Sample.token) rest)
        (fun delta => ∃ through, rules.Scanned stream returned through delta)
        (fun stop => stop = .fault .overflow ∧
          ∃ i, rules.Overlong (stream.map Sample.token) i)
  | [], returned, split, within, before => by
      have all : returned = stream.length :=
        Nat.le_antisymm within (List.drop_eq_nil_iff.mp split)
      have nothing : (stream.take returned).drop returned = [] := by
        rw [List.drop_take, Nat.sub_self, List.take_zero]
      refine ⟨returned, Nat.le_refl _, within, (by rw [nothing]; rfl), ?_,
        fun _ => ⟨all, before⟩, fun _ same => (by cases same)⟩
      rw [nothing]
      cases rules.withLogprobs with
      | true => exact ⟨[], rfl, .nil⟩
      | false => rfl
  | sample :: rest, returned, split, within, before => by
      have inside : returned < stream.length := by
        by_contra outside
        rw [List.drop_eq_nil_of_le (Nat.le_of_not_lt outside)] at split
        cases split
      have member : stream[returned]? = some sample := by
        rw [← List.head?_drop, split]
        rfl
      have there : (stream.map Sample.token)[returned]? = some sample.token := by
        rw [List.getElem?_map, member]
        rfl
      have following : stream.drop (returned + 1) = rest := by
        rw [← List.drop_drop, split]
        rfl
      have through : (stream.take returned).map Sample.token ++ [sample.token] =
          (stream.map Sample.token).take (returned + 1) := by
        rw [← List.map_take, List.take_add_one, member, List.map_append]
        rfl
      obtain ⟨text, written⟩ := legible.spells sample (List.mem_of_getElem? member)
      have spelled := Sample.toJson_eq_ok_iff.mp written
      have rendered :
          rules.render sample = .ok (if rules.withLogprobs then some text else none) := by
        unfold render
        rw [written]
        cases rules.withLogprobs <;> rfl
      unfold scan
      rw [rendered, yields_bind, yields_ok]
      dsimp only
      rw [through, yields_bind]
      refine (verdict_prevails there before (legible.decodes _)).mono ?_
        (fun stop large => ⟨large.1, returned, large.2⟩)
      rintro reason? ⟨openNext, finishes⟩
      cases reason? with
      | some reason =>
          have one : (stream.take (returned + 1)).drop returned = [sample] := by
            rw [drop_take_cons split (Nat.lt_succ_self _), List.drop_take, Nat.sub_self,
              List.take_zero]
          refine ⟨returned + 1, Nat.le_succ _, inside, (by rw [one]; rfl), ?_,
            fun goesOn => (by cases goesOn), fun other same => ?_⟩
          · rw [one]
            cases rules.withLogprobs with
            | true => exact ⟨[text], rfl, .cons spelled .nil⟩
            | false => rfl
          · cases same
            exact ⟨returned, Nat.le_refl _, rfl, finishes reason rfl⟩
      | none =>
          rw [yields_bind, ← List.map_take]
          refine (scan_yields_due rules legible rest (returned + 1) following inside
            (openNext rfl)).mono ?_ (fun _ large => large)
          rintro delta ⟨through, later⟩
          have longer := drop_take_cons split later.begins
          refine ⟨through, Nat.le_of_succ_le later.begins, later.within, ?_, ?_, later.goesOn,
            fun reason same => ?_⟩
          · show sample.token :: delta.tokens = _
            rw [later.tokens, longer]
            rfl
          · have rest := later.logprobs
            rw [longer]
            cases asked : rules.withLogprobs with
            | true =>
                rw [asked] at rest
                obtain ⟨texts, shown, spells⟩ := rest
                refine ⟨text :: texts, ?_, .cons spelled spells⟩
                show delta.logprobs.map _ = _
                rw [shown]
                rfl
            | false =>
                rw [asked] at rest
                show delta.logprobs.map _ = none
                rw [show delta.logprobs = none from rest]
                rfl
          · obtain ⟨f, least, rest⟩ := later.ends reason same
            exact ⟨f, Nat.le_of_succ_le least, rest⟩

end Reporting

end ContinuousBatching
