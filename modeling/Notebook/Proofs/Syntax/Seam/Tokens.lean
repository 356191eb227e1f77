import Notebook.Proofs.Syntax.Seam.Readers

/-!
# Single tokens before a seam

Readers of single tokens and of groups look at no more than they take, and what they take does not end in braces
unless it is a group in braces.
-/

namespace Notebook.Syntax
open Notebook.Text

variable {α β σ : Type} {back : List TokenTree}

/-! ## What does not end in braces -/

theorem not_shut_nil : ¬Shut [] := fun h => h.ne_nil rfl

theorem not_shut_of_forall {u : List TokenTree} (h : ∀ t ∈ u, isGroup .brace [t] = false) : ¬Shut u := by
  rintro ⟨before, body, s, rfl⟩
  have hlast := h (.group .brace body s) (List.mem_append_right _ (List.mem_singleton_self _))
  cases hlast

theorem not_shut_append {u v : List TokenTree} (hu : ¬Shut u) (hv : ¬Shut v) : ¬Shut (u ++ v) := by
  intro h
  by_cases hnil : v = []
  · rw [hnil, List.append_nil] at h
    exact hu h
  · exact hv (h.of_append hnil)

/-- What the reader takes last is no group in braces. -/
def Parse.Ends (p : Parse α) : Prop := p.Takes fun _ u => u ≠ [] ∧ ¬Shut u

section Open

theorem Parse.Still.open {p : Parse α} (hp : p.Still) : p.Open := hp.mono fun _ _ hu => hu ▸ not_shut_nil

@[grind .]
theorem open_bind {p : Parse α} {f : α → Parse β} (hp : p.Open) (hf : ∀ a, (f a).Open) : (p >>= f).Open :=
  hp.bind fun a _ hu => (hf a).mono fun _ _ hv => not_shut_append hu hv

/-- What is taken before does not matter. -/
theorem Parse.Ends.after {p : Parse α} {f : α → Parse β} (hf : ∀ a, (f a).Ends) : (p >>= f).Ends :=
  (Parse.Takes.any p).bind fun a u _ => (hf a).mono fun _ _ hv =>
    ⟨List.append_ne_nil_of_right_ne_nil u hv.1, fun h => hv.2 (h.of_append hv.1)⟩

theorem Parse.Ends.first {p : Parse α} {f : α → Parse β} (hp : p.Ends) (hf : ∀ a, (f a).Open) : (p >>= f).Ends :=
  hp.bind fun a _ hu => (hf a).mono fun _ v hv =>
    ⟨List.append_ne_nil_of_left_ne_nil hu.1 v, not_shut_append hu.2 hv⟩

theorem Parse.Ends.open {p : Parse α} (hp : p.Ends) : p.Open := hp.mono fun _ _ hu => hu.2

theorem Parse.Ends.bites {p : Parse α} (hp : p.Ends) : p.Bites := hp.mono fun _ _ hu => hu.1

theorem Parse.Open.ends {p : Parse α} (hp : p.Open) (hbites : p.Bites) : p.Ends :=
  fun now after a used hrun hrest => ⟨hbites now after a used hrun hrest, hp now after a used hrun hrest⟩

@[grind .]
theorem open_pure (a : α) : (pure a : Parse α).Open := .pure not_shut_nil

@[grind .]
theorem open_failWith (problem : Bool → Problem) : (failWith problem : Parse α).Open := .failWith _

@[grind .]
theorem open_expected (things : List String) : (expected things : Parse α).Open := .failWith _

@[grind .]
theorem open_wrong (what : String) : (wrong what : Parse α).Open := .failWith _

@[grind .]
theorem open_wrongAt (s : Span) (what : String) : (wrongAt s what : Parse α).Open := .fail _

theorem open_ite {c : Prop} [Decidable c] {p q : Parse α} (hp : p.Open) (hq : q.Open) :
    (if c then p else q).Open := .ite hp hq

@[grind .]
theorem open_discard {p : Parse α} (hp : p.Open) : (discard p).Open := hp.discard.mono fun _ _ ⟨_, hu⟩ => hu

@[grind .]
theorem open_map {p : Parse α} {f : α → β} (hp : p.Open) : (f <$> p).Open := open_bind hp fun a => open_pure (f a)

@[grind .]
theorem open_iterate {s : σ} {step : σ → Parse (σ ⊕ α)} (hstep : ∀ s, (step s).Open) : (iterate s step).Open := by
  refine .iterate (J := fun _ u => ¬Shut u) not_shut_nil fun s u hu => (hstep s).mono fun next v hv => ?_
  cases next <;> exact not_shut_append hu hv

@[grind .]
theorem open_forIn {as : List α} {init : β} {f : α → β → Parse (ForInStep β)} (hf : ∀ a b, (f a b).Open) :
    (forIn as init f : Parse β).Open := by
  induction as generalizing init with
  | nil => exact open_pure init
  | cons a as ih =>
    rw [List.forIn_cons]
    refine open_bind (hf a init) fun step => ?_
    cases step with
    | done b => exact open_pure b
    | yield b => exact ih

@[grind .]
theorem open_input : input.Open := still_input.open

@[grind .]
theorem open_peek (q : List TokenTree → Bool) : (peek q).Open := (still_peek q).open

@[grind .]
theorem open_peekSecond (q : List TokenTree → Bool) : (peekSecond q).Open := (still_peekSecond q).open

@[grind .]
theorem open_peekThird (q : List TokenTree → Bool) : (peekThird q).Open := (still_peekThird q).open

@[grind .]
theorem open_here : here.Open := still_here.open

@[grind .]
theorem open_spanFrom (start : Span) : (spanFrom start).Open := (still_spanFrom start).open

@[grind .]
theorem open_reprint (f : List Piece → List Piece) : (reprint f).Open := (still_reprint f).open

@[grind .]
theorem open_ahead? (p : Parse α) : (ahead? p).Open := (still_ahead? p).open

@[grind .]
theorem open_captured {p : Parse α} (hp : p.Open) : (captured p).Open := by
  unfold captured
  grind

@[grind .]
theorem open_withSpan {p : Parse α} (hp : p.Open) : (withSpan p).Open := by
  unfold withSpan
  grind

theorem isGroup_of_isPunctChars {cs : List Char} {rest : List TokenTree} (h : isPunctChars cs rest = true) :
    ∀ t ∈ rest.take cs.length, isGroup .brace [t] = false := by
  induction cs generalizing rest with
  | nil => exact fun t ht => absurd ht List.not_mem_nil
  | cons c cs ih =>
    unfold isPunctChars at h
    split at h
    · cases ‹c :: cs = []›
    · rename_i d joint s rest heq hcs
      cases hcs
      simp only [Bool.and_eq_true, Bool.or_eq_true, List.isEmpty_iff] at h
      rw [List.length_cons, List.take_succ_cons, List.forall_mem_cons]
      refine ⟨rfl, ?_⟩
      obtain ⟨-, hcs | ⟨-, h⟩⟩ := h
      · rw [hcs]
        exact fun t ht => absurd ht List.not_mem_nil
      · exact ih h
    · cases h

@[grind .]
theorem open_punct? (s : String) : (punct? s).Open := by
  refine .look fun now after found used hrun hrest => ?_
  split at hrun
  · rename_i hpunct
    cases hrun
    rw [used_eq_take (n := s.toList.length) hrest]
    exact not_shut_of_forall (isGroup_of_isPunctChars hpunct)
  · cases hrun
    rw [List.self_eq_append_left.1 hrest]
    exact not_shut_nil

@[grind .]
theorem open_punct (s : String) : (punct s).Open := by
  unfold punct missing
  grind

@[grind .]
theorem open_anyWord : anyWord.Open :=
  takes_anyWord.mono fun _ _ ⟨_, hu⟩ => hu ▸ not_shut_of_forall (by simp [isGroup])

@[grind .]
theorem open_ident : ident.Open := takes_ident.mono fun _ _ ⟨_, hu⟩ => hu ▸ not_shut_of_forall (by simp [isGroup])

@[grind .]
theorem open_word? (w : String) : (word? w).Open := by
  unfold word?
  grind

@[grind .]
theorem open_word (w : String) : (word w).Open := by
  unfold word
  grind

@[grind .]
theorem open_underscore : underscore.Open := by
  unfold underscore
  grind

@[grind .]
theorem open_lifetime : lifetime.Open := by
  refine .look fun now after s used hrun hrest => ?_
  split at hrun
  · rename_i s w t rest heq
    cases hrun
    rw [used_eq_take (n := 2) hrest, heq]
    exact not_shut_of_forall (by simp [isGroup])
  · exact absurd hrun (not_run_failWith _)

@[grind .]
theorem open_lifetime? : lifetime?.Open := by
  unfold lifetime?
  grind

@[grind .]
theorem open_literal : literal.Open := by
  refine .look fun now after value used hrun hrest => ?_
  split at hrun
  · rename_i cs s rest heq
    cases hrun
    rw [used_eq_take (n := 1) hrest, heq]
    exact not_shut_of_forall (by simp [isGroup])
  · rename_i w s rest heq
    split at hrun
    · cases hrun
      rw [used_eq_take (n := 1) hrest, heq]
      exact not_shut_of_forall (by simp [isGroup])
    · exact absurd hrun (not_run_failWith _)
  · rename_i joint s cs t rest heq
    split at hrun
    · cases hrun
      rw [used_eq_take (n := 2) hrest, heq]
      exact not_shut_of_forall (by simp [isGroup])
    · exact absurd hrun (not_run_failWith _)
  · exact absurd hrun (not_run_failWith _)

@[grind .]
theorem open_group {d : Delimiter} (hd : d ≠ .brace) (p : Parse α) : (group d p).Open := by
  refine (takes_group d (.any p)).mono fun a u h => ?_
  obtain ⟨v, w, s, rfl, -⟩ := h
  exact not_shut_of_forall (by simpa [isGroup] using hd.symm)

@[grind .]
theorem open_many {condition : Parse Bool} {p : Parse α} (hcondition : condition.Open) (hp : p.Open) :
    (many condition p).Open := by
  unfold many
  grind

@[grind .]
theorem open_separatedUntil {stop : Parse Bool} {separator : String} {p : Parse α} (hstop : stop.Open) (hp : p.Open) :
    (separatedUntil stop separator p).Open := by
  unfold separatedUntil
  grind

end Open

/-! ## What looks at no more than is taken -/

section Sharp

theorem sharp_look {f : Input → Parse α} (hsame : ∀ now back, Shut now.rest → f (now.onto back) = f now)
    (hf : ∀ now, (f now).Sharp) : (input >>= f).Sharp := by
  intro now hnow back
  change (f (now.onto back)).run (now.onto back) = _
  rw [hsame now back hnow]
  exact hf now now hnow back

theorem Parse.pure_bind (a : α) (f : α → Parse β) : (pure a >>= f : Parse β) = f a := rfl

/-- What is read after a look at the tokens that are left. -/
theorem sharp_of_at {f : Input → Parse α} (hsame : ∀ now back, Shut now.rest → f (now.onto back) = f now)
    (hf : ∀ now, Shut now.rest → (f now).SharpAt now) : (input >>= f).Sharp := by
  intro now hnow back
  change (f (now.onto back)).run (now.onto back) = _
  rw [hsame now back hnow]
  exact hf now hnow back

theorem sharpAt_pure (a : α) (now : Input) : (pure a : Parse α).SharpAt now := fun _ => rfl

@[grind .]
theorem sharp_pure (a : α) : (pure a : Parse α).Sharp := fun _ _ _ => rfl

@[grind .]
theorem sharp_failWith (problem : Bool → Problem) : (failWith problem : Parse α).Sharp := by
  intro now hnow back
  obtain ⟨rest, scope, printed, last, braced, leftover⟩ := now
  cases rest with
  | nil => exact absurd rfl hnow.ne_nil
  | cons t rest => rfl

@[grind .]
theorem sharp_expected (things : List String) : (expected things : Parse α).Sharp := sharp_failWith _

@[grind .]
theorem sharp_wrong (what : String) : (wrong what : Parse α).Sharp := sharp_failWith _

@[grind .]
theorem sharp_wrongAt (s : Span) (what : String) : (wrongAt s what : Parse α).Sharp := fun _ _ _ => rfl

theorem sharp_ite {c : Prop} [Decidable c] {p q : Parse α} (hp : p.Sharp) (hq : q.Sharp) :
    (if c then p else q).Sharp := by
  split
  · exact hp
  · exact hq

@[grind .]
theorem sharp_peek {q : List TokenTree → Bool} (hq : Sharp q) : (peek q).Sharp :=
  sharp_look (fun now back hnow => congrArg pure (hq now.rest back hnow)) fun _ => sharp_pure _

@[grind .]
theorem sharp_atEnd : atEnd.Sharp :=
  sharp_look (fun _ back hnow => congrArg pure (isEmpty_append hnow back)) fun _ => sharp_pure _

@[grind .]
theorem sharp_here : here.Sharp :=
  sharp_look (fun now back hnow => congrArg pure (by
    rw [onto_rest, List.head?_append_of_ne_nil _ hnow.ne_nil]
    rfl)) fun _ => sharp_pure _

@[grind .]
theorem sharp_spanFrom (start : Span) : (spanFrom start).Sharp := fun _ _ _ => rfl

@[grind .]
theorem sharp_reprint (f : List Piece → List Piece) : (reprint f).Sharp := fun _ _ _ => rfl

@[grind .]
theorem sharp_print (p : Piece) : (print p).Sharp := fun _ _ _ => rfl

@[grind .]
theorem sharp_map {p : Parse α} {f : α → β} (hp : p.Sharp) : (f <$> p).Sharp :=
  fun now hnow => sharpAt_bind (hp now hnow) fun _ _ _ => sharpAt_pure _ _

@[grind .]
theorem sharp_discard {p : Parse α} (hp : p.Sharp) : (discard p).Sharp := sharp_map hp

@[grind .]
theorem sharp_ahead? {p : Parse α} (hp : p.Sharp) : (ahead? p).Sharp := by
  intro now hnow back
  unfold ahead?
  dsimp only
  rw [hp now hnow back]
  cases p.run now <;> rfl

/-- Taking no more tokens than there are. -/
theorem sharpAt_advance {n : Nat} {now : Input} (hn : n ≤ now.rest.length) (braced : Bool) :
    (advance n braced).SharpAt now := by
  intro back
  unfold advance Parse.change
  simp only [onto_rest, List.drop_append_of_le_length hn, List.take_append_of_le_length hn]
  rfl

theorem sharpAt_token {n : Nat} {now : Input} (hn : n ≤ now.rest.length) (braced : Bool) (piece : Piece) (a : α) :
    Parse.SharpAt (do
      advance n braced
      print piece
      return a) now :=
  sharpAt_bind (sharpAt_advance hn braced) fun _ _ _ => sharpAt_bind (fun _ => rfl) fun _ _ _ => sharpAt_pure a _

theorem length_of_isPunctChars {cs : List Char} {rest : List TokenTree} (h : isPunctChars cs rest = true) :
    cs.length ≤ rest.length := by
  have hsigns : (signs (rest.take cs.length)).length = cs.length := by rw [signs_of_isPunctChars h]
  have hle : (signs (rest.take cs.length)).length ≤ (rest.take cs.length).length := List.length_filterMap_le _ _
  rw [List.length_take] at hle
  omega

@[grind .]
theorem sharp_punct? (s : String) : (punct? s).Sharp := by
  refine sharp_of_at (fun now back hnow => ?_) fun now hnow => ?_
  · rw [onto_rest, sharp_isPunct s now.rest back hnow]
  · split
    · rename_i hpunct
      exact sharpAt_token (length_of_isPunctChars hpunct) false _ _
    · exact sharpAt_pure _ _

@[grind .]
theorem sharp_punct (s : String) : (punct s).Sharp :=
  sharp_bind (sharp_punct? s) (open_punct? s) fun _ => sharp_ite (sharp_pure _) (sharp_failWith _)

@[grind .]
theorem sharp_anyWord : anyWord.Sharp := by
  refine sharp_of_at (fun now back hnow => ?_) fun now hnow => ?_
  · obtain ⟨t, rest, hrest⟩ := List.exists_cons_of_ne_nil hnow.ne_nil
    rw [onto_rest, hrest]
    cases t <;> rfl
  · split
    · rename_i w s rest heq
      exact sharpAt_token (by rw [heq]; exact Nat.le_add_left 1 _) false _ _
    · exact sharp_expected _ now hnow

@[grind .]
theorem sharp_ident : ident.Sharp := by
  refine sharp_look (fun now back hnow => ?_) fun now => ?_
  · obtain ⟨t, rest, hrest⟩ := List.exists_cons_of_ne_nil hnow.ne_nil
    rw [onto_rest, hrest]
    cases t <;> rfl
  · split
    · exact sharp_ite (sharp_wrong _) sharp_anyWord
    · exact sharp_expected _

@[grind .]
theorem sharp_word? (w : String) : (word? w).Sharp :=
  sharp_bind (sharp_peek (sharp_isWord w)) (open_peek _) fun _ =>
    sharp_ite (sharp_bind (sharp_discard sharp_anyWord) (open_discard open_anyWord) fun _ => sharp_pure _)
      (sharp_pure _)

@[grind .]
theorem sharp_word (w : String) : (word w).Sharp :=
  sharp_bind (sharp_word? w) (open_word? w) fun _ => sharp_ite (sharp_pure _) (sharp_expected _)

@[grind .]
theorem sharp_underscore : underscore.Sharp :=
  sharp_bind (sharp_word? "_") (open_word? "_") fun _ => sharp_ite (sharp_pure _) (sharp_expected _)

@[grind .]
theorem sharp_lifetime : lifetime.Sharp := by
  refine sharp_of_at (fun now back hnow => ?_) fun now hnow => ?_
  · obtain ⟨t, rest, hrest⟩ := List.exists_cons_of_ne_nil hnow.ne_nil
    rw [hrest] at hnow
    rw [onto_rest, hrest]
    obtain ⟨body, s, rfl, rfl⟩ | htail := hnow.of_cons
    · rfl
    · obtain ⟨t', rest', rfl⟩ := List.exists_cons_of_ne_nil htail.ne_nil
      dsimp only [List.cons_append]
      split
      · rename_i heq
        cases heq
        rfl
      · rename_i hother
        split
        · rename_i heq
          cases heq
          exact (hother _ _ _ _ rfl).elim
        · rfl
  · split
    · rename_i s w t rest heq
      exact sharpAt_token (by rw [heq]; exact Nat.le_add_left 2 _) false _ _
    · exact sharp_expected _ now hnow

@[grind .]
theorem sharp_lifetime? : lifetime?.Sharp :=
  sharp_bind (sharp_peek sharp_isLifetime) (open_peek _) fun _ =>
    sharp_ite (sharp_bind (sharp_discard sharp_lifetime) (open_discard open_lifetime) fun _ => sharp_pure _)
      (sharp_pure _)

@[grind .]
theorem sharp_literal : literal.Sharp := by
  refine sharp_of_at (fun now back hnow => ?_) fun now hnow => ?_
  · obtain ⟨t, rest, hrest⟩ := List.exists_cons_of_ne_nil hnow.ne_nil
    rw [hrest] at hnow
    rw [onto_rest, hrest]
    obtain ⟨body, s, rfl, rfl⟩ | htail := hnow.of_cons
    · rfl
    · obtain ⟨t', rest', rfl⟩ := List.exists_cons_of_ne_nil htail.ne_nil
      cases t with
      | literal | word | group => rfl
      | punct c joint s =>
        by_cases hc : c = '-'
        · subst hc
          cases t' <;> rfl
        · dsimp only [List.cons_append]
          split <;> split <;> simp_all
  · split
    · rename_i cs s rest heq
      exact sharpAt_token (by rw [heq]; exact Nat.le_add_left 1 _) false _ _
    · rename_i w s rest heq
      split
      · exact sharpAt_token (by rw [heq]; exact Nat.le_add_left 1 _) false _ _
      · exact sharp_expected _ now hnow
    · rename_i joint s cs t rest heq
      split
      · exact sharpAt_token (by rw [heq]; exact Nat.le_add_left 2 _) false _ _
      · exact sharp_expected _ now hnow
    · exact sharp_expected _ now hnow

@[grind .]
theorem sharp_anyGroup : anyGroup.Sharp := by
  refine sharp_of_at (fun now back hnow => ?_) fun now hnow => ?_
  · obtain ⟨t, rest, hrest⟩ := List.exists_cons_of_ne_nil hnow.ne_nil
    rw [onto_rest, hrest]
    cases t <;> rfl
  · split
    · rename_i d body s rest heq
      exact sharpAt_token (by rw [heq]; exact Nat.le_add_left 1 _) _ _ _
    · exact sharp_expected _ now hnow

/-- A group is read by itself. -/
@[grind .]
theorem sharp_group (d : Delimiter) (p : Parse α) : (group d p).Sharp := by
  intro now hnow back
  obtain ⟨rest, scope, printed, last, braced, leftover⟩ := now
  obtain ⟨t, rest, rfl⟩ := List.exists_cons_of_ne_nil hnow.ne_nil
  cases t with
  | punct | word | literal => rfl
  | group e body s =>
    unfold group Input.onto
    dsimp only [List.cons_append]
    split
    · split <;> rfl
    · rfl

/-- What is seen second counts only if the first look sees something. -/
theorem guarded_append {γ : Type} {q r : List TokenTree → Bool} {f : Bool → Bool → γ} (hq : Sharp q)
    (hr : ∀ u back, Shut u → q u = true → r (u ++ back) = r u) (hf : ∀ found, f false found = f false false)
    {u : List TokenTree} (hu : Shut u) (back : List TokenTree) :
    f (q (u ++ back)) (r (u ++ back)) = f (q u) (r u) := by
  rw [hq u back hu]
  cases hfound : q u with
  | true => rw [hr u back hu hfound]
  | false => rw [hf, hf (r u)]

theorem sharp_peek_peek {q r : List TokenTree → Bool} {f : Bool → Bool → Parse α} (hq : Sharp q)
    (hr : ∀ u back, Shut u → q u = true → r (u ++ back) = r u) (hf : ∀ found, f false found = f false false)
    (hsharp : ∀ found found', (f found found').Sharp) : (peek q >>= fun found => peek r >>= f found).Sharp :=
  sharp_look (f := fun now => f (q now.rest) (r now.rest)) (fun _ back hnow => guarded_append hq hr hf hnow back)
    fun _ => hsharp _ _

/-- A look behind two colons counts only if they are there. -/
theorem sharp_peekThird {r : List TokenTree → Bool} {f : Bool → Bool → Parse α} (hr : Sharp r)
    (hf : ∀ found, f false found = f false false) (hsharp : ∀ found found', (f found found').Sharp) :
    (peek (isPunct "::") >>= fun found => peekThird r >>= f found).Sharp :=
  sharp_peek_peek (r := third r) (sharp_isPunct _) (fun _ back hu hfound =>
    third_append hr hu (isGroup_of_isPunct (by decide) hfound) (isGroup_skipOne_of_colons hfound) back) hf hsharp

end Sharp

end Notebook.Syntax
