import Mathlib.Data.List.Forall2
import DocGate.Grammar.Token

/-!
# Where the tokens of a text stand

The scan finds every token of a text once, in order.

* Places.  A `Token.Place` says where a token starts, how many dollar signs it has
  and which name.  `Place.MatchesIn` says that these stand there, `Place.StandsIn` that
  moreover the run of dollar signs and the run of word characters cannot be made longer.
  There is at most one token at a position (`Place.eq_of_start_eq`), and none starts
  within a run of dollar signs or within a name.
* The scan.  `Token.Found` relates what has been found to the places from a position
  on.  It holds of the scan of any rest of the text (`Token.exists_found`).
* Neighbours.  `Token.OccursIn` says the same of a token without its position, by the
  text before and after it.  The tokens of a text are those that occur in it
  (`Token.mem_ofText_iff`), so two dollar signs before a word character belong to a
  variable wherever they stand (`Token.exists_variable_of_run`).
* The search.  `Token.Searched` is the search for the pattern, dollar signs and then word
  characters: the leftmost match, as long as it can be, and from its end on.  It comes to
  the same places (`Token.Inventory.searched`).
-/

namespace DocGate

namespace Token

theorem ne_dollar_of_isWord {c : Char} (h : Text.isWord c = true) : c ≠ '$' := by
  rintro rfl
  rw [Text.isWord_dollar] at h
  cases h

/-- After all word characters in a row stands another character. -/
theorem head?_after_name {cs : List Char} :
    ∀ c, (cs.dropWhile Text.isWord).head? = some c → Text.isWord c = false := by
  intro c hc
  have hstop := List.head?_dropWhile_not Text.isWord cs
  rw [hc] at hstop
  simpa using hstop

/-- A place of a token in a text: the position of its first dollar sign, the number of
its dollar signs, and its name. -/
structure Place where
  start : Nat
  dollars : Nat
  name : List Char

namespace Place

variable {place other : Place} {text : List Char}

/-- The characters of the token: its dollar signs and its name. -/
def chars (place : Place) : List Char :=
  List.replicate place.dollars '$' ++ place.name

/-- The position after the token. -/
def stop (place : Place) : Nat :=
  place.start + place.dollars + place.name.length

/-- What a token is: the name with its sign after one dollar sign, and a variable of
that name after more of them. -/
inductive Denotes (place : Place) : Token → Prop
  | dollar {name : String} (hone : place.dollars = 1)
      (htext : ("$" ++ name).toList = place.chars) : Denotes place (.dollar name)
  | variable {name : String} (hmore : 2 ≤ place.dollars)
      (hname : name.toList = place.name) : Denotes place (.variable name)

/-- Dollar signs and then word characters, at least one of each, stand in a text. -/
structure MatchesIn (place : Place) (text : List Char) : Prop where
  dollars_pos : 0 < place.dollars
  name_ne_nil : place.name ≠ []
  isWord : ∀ c ∈ place.name, Text.isWord c = true
  occurs : place.chars <+: text.drop place.start

/-- A token stands in a text: it has all the dollar signs in a row that stand before its
name, and all the word characters in a row that stand after them. -/
structure StandsIn (place : Place) (text : List Char) : Prop extends MatchesIn place text where
  no_dollar_before : ∀ i, i + 1 = place.start → text[i]? ≠ some '$'
  no_word_after : ∀ c, text[place.stop]? = some c → Text.isWord c = false

/-- A place has one token. -/
theorem Denotes.eq_ofRun {token : Token} (h : place.Denotes token) :
    token = ofRun place.dollars place.name := by
  rcases h with @⟨name, hone, htext⟩ | ⟨hmore, hname⟩
  · rw [chars, hone, String.toList_append] at htext
    have hname : name.toList = place.name := List.append_cancel_left htext
    rw [ofRun, hone, if_neg (by decide), ← hname, String.ofList_toList]
  · rw [ofRun, if_pos (Nat.lt_of_succ_le hmore), ← hname, String.ofList_toList]

theorem denotes_ofRun (h : 0 < place.dollars) :
    place.Denotes (ofRun place.dollars place.name) := by
  rw [ofRun]
  split
  · exact .variable (by omega) String.toList_ofList
  · have hone : place.dollars = 1 := by omega
    refine .dollar hone ?_
    rw [chars, hone, String.toList_append, String.toList_ofList, String.toList_ofList]
    rfl

/-! ## Positions in a text -/

theorem drop_append {position : Nat} {front rest : List Char}
    (h : text.drop position = front ++ rest) : text.drop (position + front.length) = rest := by
  rw [← List.drop_drop, h, List.drop_left]

theorem getElem?_append {position i : Nat} {front rest : List Char}
    (h : text.drop position = front ++ rest) (hi : i < front.length) :
    text[position + i]? = front[i]? := by
  rw [← List.getElem?_drop, h, List.getElem?_append_left hi]

theorem getElem?_dollar {position i dollars : Nat} {rest : List Char}
    (h : text.drop position = List.replicate dollars '$' ++ rest) (hle : position ≤ i)
    (hlt : i < position + dollars) : text[i]? = some '$' := by
  obtain ⟨k, rfl⟩ := Nat.exists_eq_add_of_le hle
  rw [getElem?_append h (by rw [List.length_replicate]; omega),
    List.getElem?_replicate_of_lt (by omega)]

/-- The character after a run of dollar signs. -/
theorem getElem?_append_cons {position dollars : Nat} {c : Char} {rest : List Char}
    (h : text.drop position = List.replicate dollars '$' ++ c :: rest) :
    text[position + dollars]? = some c := by
  rw [← List.getElem?_drop, h]
  simp

/-- A run of dollar signs has one length. -/
theorem replicate_append_inj {n m : Nat} {rest more : List Char}
    (h : List.replicate n '$' ++ rest = List.replicate m '$' ++ more)
    (hrest : rest.head? ≠ some '$') (hmore : more.head? ≠ some '$') : n = m ∧ rest = more := by
  induction n generalizing m with
  | zero =>
    cases m with
    | zero => exact ⟨rfl, h⟩
    | succ m =>
      rw [List.replicate_zero, List.nil_append] at h
      rw [h] at hrest
      exact absurd rfl hrest
  | succ n ih =>
    cases m with
    | zero =>
      rw [List.replicate_zero, List.nil_append] at h
      rw [← h] at hmore
      exact absurd rfl hmore
    | succ m =>
      obtain ⟨rfl, hsame⟩ := ih (List.cons.inj h).2
      exact ⟨rfl, hsame⟩

/-- A run of word characters is as long as any other at the same position that cannot be
made longer. -/
theorem length_le_of_words {name long rest more : List Char} (h : name ++ rest = long ++ more)
    (hname : ∀ c ∈ name, Text.isWord c = true)
    (hmore : ∀ c, more.head? = some c → Text.isWord c = false) : name.length ≤ long.length := by
  rcases List.append_eq_append_iff.1 h with ⟨extra, rfl, -⟩ | ⟨extra, rfl, rfl⟩
  · rw [List.length_append]
    omega
  · cases extra with
    | nil => simp
    | cons c extra =>
      have hc := hmore c rfl
      rw [hname c (by simp)] at hc
      cases hc

theorem MatchesIn.exists_drop_eq (h : place.MatchesIn text) :
    ∃ after, text.drop place.start = List.replicate place.dollars '$' ++ (place.name ++ after) := by
  obtain ⟨after, hafter⟩ := h.occurs
  exact ⟨after, by rw [← hafter, chars, List.append_assoc]⟩

/-- What stands behind a token starts at its end. -/
theorem drop_stop {after : List Char}
    (h : text.drop place.start = List.replicate place.dollars '$' ++ (place.name ++ after)) :
    text.drop place.stop = after := by
  have hrest := drop_append (drop_append h)
  rwa [List.length_replicate] at hrest

theorem MatchesIn.head?_name_ne (h : place.MatchesIn text) (after : List Char) :
    (place.name ++ after).head? ≠ some '$' := by
  obtain ⟨c, name, hname⟩ := List.exists_cons_of_ne_nil h.name_ne_nil
  have hc : c ≠ '$' := ne_dollar_of_isWord (h.isWord c (hname ▸ List.mem_cons_self))
  rw [hname]
  simpa using hc

theorem MatchesIn.start_lt_stop (h : place.MatchesIn text) : place.start < place.stop := by
  have := h.dollars_pos
  rw [stop]
  omega

/-- A dollar sign stands where a token starts. -/
theorem MatchesIn.getElem?_start (h : place.MatchesIn text) : text[place.start]? = some '$' := by
  obtain ⟨after, hafter⟩ := h.exists_drop_eq
  exact getElem?_dollar hafter (Nat.le_refl _) (Nat.lt_add_of_pos_right h.dollars_pos)

/-- Every position of a name holds a word character. -/
theorem MatchesIn.isWord_of_mem_name (h : place.MatchesIn text) {i : Nat}
    (hle : place.start + place.dollars ≤ i) (hlt : i < place.stop) :
    ∃ c, text[i]? = some c ∧ Text.isWord c = true := by
  obtain ⟨after, hafter⟩ := h.exists_drop_eq
  have hrest := drop_append hafter
  rw [List.length_replicate] at hrest
  obtain ⟨k, rfl⟩ := Nat.exists_eq_add_of_le hle
  have hk : k < place.name.length := by
    rw [stop] at hlt
    omega
  exact ⟨place.name[k], by rw [getElem?_append hrest hk, List.getElem?_eq_getElem hk],
    h.isWord _ (List.getElem_mem hk)⟩

/-- The last character of a name is no dollar sign. -/
theorem MatchesIn.no_dollar_before_stop (h : place.MatchesIn text) {i : Nat}
    (hi : i + 1 = place.stop) : text[i]? ≠ some '$' := by
  have hlength := List.length_pos_iff.2 h.name_ne_nil
  rw [stop] at hi
  obtain ⟨c, hc, hword⟩ := h.isWord_of_mem_name (i := i) (by omega) (by rw [stop]; omega)
  rw [hc]
  exact fun hdollar => ne_dollar_of_isWord hword (Option.some.inj hdollar)

/-- No name goes on after a token that stands in the text. -/
theorem StandsIn.head?_after (h : place.StandsIn text) {after : List Char}
    (hafter : text.drop place.start =
      List.replicate place.dollars '$' ++ (place.name ++ after)) :
    ∀ c, after.head? = some c → Text.isWord c = false := by
  intro c hc
  refine h.no_word_after c ?_
  rw [← hc, List.head?_eq_getElem?, ← drop_stop hafter, List.getElem?_drop, Nat.add_zero]

/-- A match where a token stands has the dollar signs of the token and at most its
name. -/
theorem StandsIn.stop_le (h : place.StandsIn text) (hother : other.MatchesIn text)
    (hstart : other.start = place.start) :
    other.dollars = place.dollars ∧ other.stop ≤ place.stop := by
  obtain ⟨after, hafter⟩ := h.exists_drop_eq
  obtain ⟨more, hmore⟩ := hother.exists_drop_eq
  rw [hstart, hafter] at hmore
  obtain ⟨hdollars, hnames⟩ := replicate_append_inj hmore (h.head?_name_ne _)
    (hother.head?_name_ne _)
  have hlength := length_le_of_words hnames.symm hother.isWord (h.head?_after hafter)
  rw [stop, stop]
  exact ⟨hdollars.symm, by omega⟩

/-- At most one token stands at a position. -/
theorem eq_of_start_eq (h : place.StandsIn text) (hother : other.StandsIn text)
    (hstart : place.start = other.start) : place = other := by
  obtain ⟨hdollars, hle⟩ := hother.stop_le h.toMatchesIn hstart
  obtain ⟨-, hge⟩ := h.stop_le hother.toMatchesIn hstart.symm
  obtain ⟨after, hafter⟩ := h.exists_drop_eq
  obtain ⟨more, hmore⟩ := hother.exists_drop_eq
  rw [← hstart, hafter, hdollars] at hmore
  have hlength : place.name.length = other.name.length := by
    rw [stop, stop] at hle hge
    omega
  have hname := (List.append_inj (List.append_cancel_left hmore) hlength).1
  obtain ⟨start, dollars, name⟩ := place
  obtain ⟨start', dollars', name'⟩ := other
  obtain rfl : start = start' := hstart
  obtain rfl : dollars = dollars' := hdollars
  obtain rfl : name = name' := hname
  rfl

/-- A token that starts in a run of dollar signs starts with it. -/
theorem StandsIn.start_cases (h : place.StandsIn text) {position dollars : Nat}
    {rest : List Char} (hdrop : text.drop position = List.replicate dollars '$' ++ rest)
    (hle : position ≤ place.start) :
    place.start = position ∨ position + dollars ≤ place.start := by
  by_contra hinside
  obtain ⟨i, hi⟩ : ∃ i, i + 1 = place.start := ⟨place.start - 1, by omega⟩
  exact h.no_dollar_before i hi (getElem?_dollar hdrop (by omega) (by omega))

/-- After a token the next one starts at its end or later. -/
theorem StandsIn.stop_le_start (h : place.StandsIn text) (hother : other.StandsIn text)
    (hle : place.start ≤ other.start) : other = place ∨ place.stop ≤ other.start := by
  obtain ⟨after, hafter⟩ := h.exists_drop_eq
  rcases hother.start_cases hafter hle with hstart | hbehind
  · exact .inl (eq_of_start_eq hother h hstart)
  · refine .inr (Decidable.byContradiction fun hinside => ?_)
    obtain ⟨c, hc, hword⟩ := h.isWord_of_mem_name hbehind (Nat.lt_of_not_le hinside)
    rw [hother.getElem?_start] at hc
    exact ne_dollar_of_isWord hword (Option.some.inj hc).symm

/-- No token starts in dollar signs that a character follows which is no dollar sign and
no word character, nor at a character without dollar signs before it. -/
theorem StandsIn.lt_start_of_dead (h : place.StandsIn text) {position dollars : Nat} {c : Char}
    {rest : List Char} (hdrop : text.drop position = List.replicate dollars '$' ++ c :: rest)
    (hc : c ≠ '$') (hdead : ¬(0 < dollars ∧ Text.isWord c = true)) (hle : position ≤ place.start) :
    position + dollars < place.start := by
  rcases h.start_cases hdrop hle with hstart | hbehind
  · -- The name would start with the character.
    obtain ⟨after, hafter⟩ := h.exists_drop_eq
    rw [hstart, hdrop] at hafter
    obtain ⟨hcount, hname⟩ := replicate_append_inj hafter (by simpa using hc)
      (h.head?_name_ne after)
    obtain ⟨first, name, hcons⟩ := List.exists_cons_of_ne_nil h.name_ne_nil
    rw [hcons] at hname
    obtain ⟨rfl, -⟩ := List.cons.inj hname
    exact absurd ⟨hcount ▸ h.dollars_pos, h.isWord _ (hcons ▸ List.mem_cons_self)⟩ hdead
  · refine Nat.lt_of_le_of_ne hbehind fun hsame => ?_
    have hhere := h.getElem?_start
    rw [← hsame, getElem?_append_cons hdrop] at hhere
    exact hc (Option.some.inj hhere)

end Place

/-! ## The scan -/

variable {text : List Char} {position : Nat} {places : List Place} {tokens : List Token}

/-- The places of all tokens that stand in a text from a position on, in order and
without overlap. -/
structure Inventory (text : List Char) (position : Nat) (places : List Place) : Prop where
  ordered : places.Pairwise fun earlier later => earlier.stop ≤ later.start
  mem_iff : ∀ place, place ∈ places ↔ place.StandsIn text ∧ position ≤ place.start

/-- What has been found from a position on: the tokens that stand in the text from there
on, each at its place. -/
structure Found (text : List Char) (position : Nat) (places : List Place)
    (tokens : List Token) : Prop extends Inventory text position places where
  denotes : List.Forall₂ Place.Denotes places tokens

/-- What has been found is the token of each place. -/
theorem Found.eq_map (h : Found text position places tokens) :
    tokens = places.map fun place => ofRun place.dollars place.name := by
  have htokens := h.denotes.imp fun _ _ hdenotes => hdenotes.eq_ofRun.symm
  rw [← List.forall₂_map_left_iff, List.forall₂_eq_eq_eq] at htokens
  exact htokens.symm

/-- Nothing is found in dollar signs at the end of the text. -/
theorem found_nil {dollars : Nat} (h : text.drop position = List.replicate dollars '$') :
    Found text position [] [] := by
  refine ⟨⟨.nil, fun place => ⟨fun hmem => absurd hmem List.not_mem_nil, ?_⟩⟩, .nil⟩
  intro ⟨hstands, hle⟩
  -- The name would have to hold one of the dollar signs, or stand after the end.
  have hlength := List.length_pos_iff.2 hstands.name_ne_nil
  obtain ⟨c, hc, hword⟩ := hstands.isWord_of_mem_name (Nat.le_refl _)
    (by rw [Place.stop]; omega)
  obtain ⟨k, hk⟩ := Nat.exists_eq_add_of_le (Nat.le_trans hle (Nat.le_add_right _ place.dollars))
  rw [hk, ← List.getElem?_drop, h, List.getElem?_replicate] at hc
  split at hc
  · exact absurd (Option.some.inj hc).symm (ne_dollar_of_isWord hword)
  · cases hc

/-- Characters in which no token starts change nothing. -/
theorem Found.skip {next : Nat} (h : Found text next places tokens) (hle : position ≤ next)
    (hnone : ∀ place : Place, place.StandsIn text → position ≤ place.start → next ≤ place.start) :
    Found text position places tokens where
  denotes := h.denotes
  ordered := h.ordered
  mem_iff place := by
    rw [h.mem_iff]
    exact and_congr_right fun hstands =>
      ⟨fun hnext => Nat.le_trans hle hnext, hnone place hstands⟩

/-- A token is found before those after its end. -/
theorem Found.cons {place : Place} (h : Found text place.stop places tokens)
    (hstands : place.StandsIn text) :
    Found text place.start (place :: places) (ofRun place.dollars place.name :: tokens) where
  denotes := .cons (Place.denotes_ofRun hstands.dollars_pos) h.denotes
  ordered := List.pairwise_cons.2 ⟨fun later hlater => ((h.mem_iff later).1 hlater).2, h.ordered⟩
  mem_iff other := by
    rw [List.mem_cons, h.mem_iff]
    constructor
    · intro h
      rcases h with rfl | ⟨hother, hle⟩
      · exact ⟨hstands, Nat.le_refl _⟩
      · exact ⟨hother, Nat.le_trans (Nat.le_of_lt hstands.start_lt_stop) hle⟩
    · intro ⟨hother, hle⟩
      exact (hstands.stop_le_start hother hle).imp_right fun hstop => ⟨hother, hstop⟩

/-- The name that is being read is the name of a token if no word character follows. -/
theorem standsIn_of_read {dollars : Nat} {name rest : List Char}
    (hdrop : text.drop position = List.replicate dollars '$' ++ (name ++ rest))
    (hbefore : ∀ i, i + 1 = position → text[i]? ≠ some '$') (hpos : 0 < dollars)
    (hne : name ≠ []) (hword : ∀ c ∈ name, Text.isWord c = true)
    (hrest : ∀ c, rest.head? = some c → Text.isWord c = false) :
    (⟨position, dollars, name⟩ : Place).StandsIn text where
  dollars_pos := hpos
  name_ne_nil := hne
  isWord := hword
  occurs := ⟨rest, by rw [hdrop, Place.chars, List.append_assoc]⟩
  no_dollar_before := hbefore
  no_word_after c hc := by
    have hafter : text.drop (Place.stop ⟨position, dollars, name⟩) = rest := Place.drop_stop hdrop
    refine hrest c ?_
    rw [List.head?_eq_getElem?, ← hafter, List.getElem?_drop, Nat.add_zero]
    exact hc

/-- Dollar signs and a name after them that cannot be made longer on either side are a
token. -/
theorem standsIn_of_append {dollars : Nat} {name before after : List Char} (hpos : 0 < dollars)
    (hne : name ≠ []) (hword : ∀ c ∈ name, Text.isWord c = true)
    (htext : text = before ++ (List.replicate dollars '$' ++ (name ++ after)))
    (hbefore : before.getLast? ≠ some '$')
    (hafter : ∀ c, after.head? = some c → Text.isWord c = false) :
    (⟨before.length, dollars, name⟩ : Place).StandsIn text := by
  refine standsIn_of_read (by rw [htext, List.drop_left]) ?_ hpos hne hword hafter
  intro i hi
  rw [htext, List.getElem?_append_left (by omega)]
  rwa [List.getLast?_eq_getElem?, ← hi, Nat.add_sub_cancel] at hbefore

/-- What both scanners find in the rest of a text is what stands in the text from the
position on at which the dollar signs before the rest start. -/
theorem exists_found (text cs : List Char) :
    (∀ position dollars, text.drop position = List.replicate dollars '$' ++ cs →
      (∀ i, i + 1 = position → text[i]? ≠ some '$') →
      ∃ places, Found text position places (scan dollars cs)) ∧
    ∀ position dollars read, 0 < dollars → read ≠ [] →
      (∀ c ∈ read, Text.isWord c = true) →
      text.drop position = List.replicate dollars '$' ++ (read.reverse ++ cs) →
      (∀ i, i + 1 = position → text[i]? ≠ some '$') →
      ∃ places, Found text position places (scanName dollars read cs) := by
  induction cs with
  | nil =>
    refine ⟨fun position dollars hdrop _ => ⟨[], found_nil (by simpa using hdrop)⟩, ?_⟩
    intro position dollars read hpos hne hword hdrop hbefore
    have hstands := standsIn_of_read hdrop hbefore hpos (by simpa using hne)
      (fun c hc => hword c (List.mem_reverse.1 hc)) (by simp)
    have hafter : text.drop (Place.stop ⟨position, dollars, read.reverse⟩) = [] :=
      Place.drop_stop hdrop
    have hnothing : Found text (Place.stop ⟨position, dollars, read.reverse⟩) [] (scan 0 []) :=
      found_nil (by rw [hafter, List.replicate_zero])
    exact ⟨_, hnothing.cons hstands⟩
  | cons c rest ih =>
    obtain ⟨ihscan, ihname⟩ := ih
    -- A character that goes on with nothing ends the dollar signs before it.
    have hskip : ∀ position dollars, text.drop position = List.replicate dollars '$' ++ c :: rest →
        c ≠ '$' → ¬(0 < dollars ∧ Text.isWord c = true) →
        ∃ places, Found text position places (scan 0 rest) := by
      intro position dollars hdrop hdollar hdead
      have hafter : text.drop (position + (dollars + 1)) = rest := by
        have hfront : text.drop position = (List.replicate dollars '$' ++ [c]) ++ rest := by
          simpa using hdrop
        simpa using Place.drop_append hfront
      obtain ⟨places, hfound⟩ := ihscan _ 0 hafter fun i hi => by
        obtain rfl : i = position + dollars := by omega
        rw [Place.getElem?_append_cons hdrop]
        simpa using hdollar
      exact ⟨places, hfound.skip (by omega) fun place hstands hle =>
        hstands.lt_start_of_dead hdrop hdollar hdead hle⟩
    constructor
    · intro position dollars hdrop hbefore
      rw [scan]
      split
      · rename_i hdollar
        refine ihscan position (dollars + 1) ?_ hbefore
        rw [hdrop, hdollar, List.replicate_succ', List.append_assoc]
        rfl
      · rename_i hdollar
        split
        · rename_i hstart
          exact ihname position dollars [c] hstart.1 (List.cons_ne_nil _ _)
            (by simpa using hstart.2) hdrop hbefore
        · rename_i hdead
          exact hskip position dollars hdrop hdollar hdead
    · intro position dollars read hpos hne hword hdrop hbefore
      rw [scanName]
      split
      · rename_i hc
        refine ihname position dollars (c :: read) hpos (List.cons_ne_nil _ _)
          (List.forall_mem_cons.2 ⟨hc, hword⟩) ?_ hbefore
        rw [hdrop, List.reverse_cons, List.append_assoc]
        rfl
      · rename_i hc
        have hstands := standsIn_of_read hdrop hbefore hpos (by simpa using hne)
          (fun d hd => hword d (List.mem_reverse.1 hd)) (by simpa using hc)
        have hafter : text.drop (Place.stop ⟨position, dollars, read.reverse⟩) = c :: rest :=
          Place.drop_stop hdrop
        split
        · rename_i hdollar
          obtain ⟨places, hfound⟩ := ihscan _ 1 (by rw [hafter, hdollar]; rfl)
            fun i hi => hstands.no_dollar_before_stop hi
          exact ⟨_, hfound.cons hstands⟩
        · rename_i hdollar
          obtain ⟨places, hfound⟩ := hskip _ 0 hafter hdollar (by simp)
          exact ⟨_, hfound.cons hstands⟩

/-- The tokens of a text are those of the places that stand in it. -/
theorem mem_ofText_iff_standsIn {token : Token} {text : String} :
    token ∈ ofText text ↔
      ∃ place : Place, place.StandsIn text.toList ∧ token = ofRun place.dollars place.name := by
  obtain ⟨places, hfound⟩ := (exists_found text.toList text.toList).1 0 0 rfl (by simp)
  rw [ofText, hfound.eq_map, List.mem_map]
  constructor
  · intro ⟨place, hplace, htoken⟩
    exact ⟨place, ((hfound.mem_iff place).1 hplace).1, htoken.symm⟩
  · intro ⟨place, hstands, htoken⟩
    exact ⟨place, (hfound.mem_iff place).2 ⟨hstands, Nat.zero_le _⟩, htoken.symm⟩

/-! ## Tokens by their neighbours -/

/-- Dollar signs and a name after them stand in a text as a whole: no further
dollar sign stands before them, and no word character after them. -/
def OccursIn (dollars : Nat) (name cs : List Char) : Prop :=
  0 < dollars ∧ name ≠ [] ∧ (∀ c ∈ name, Text.isWord c = true) ∧
    ∃ before after, cs = before ++ (List.replicate dollars '$' ++ (name ++ after)) ∧
      before.getLast? ≠ some '$' ∧ ∀ c, after.head? = some c → Text.isWord c = false

/-- A token stands in a text as a whole at some place. -/
theorem occursIn_iff_exists_standsIn {dollars : Nat} {name : List Char} :
    OccursIn dollars name text ↔ ∃ start, (⟨start, dollars, name⟩ : Place).StandsIn text := by
  constructor
  · intro ⟨hpos, hne, hword, before, after, htext, hbefore, hafter⟩
    exact ⟨before.length, standsIn_of_append hpos hne hword htext hbefore hafter⟩
  · intro ⟨start, h⟩
    obtain ⟨after, hafter⟩ := h.exists_drop_eq
    refine ⟨h.dollars_pos, h.name_ne_nil, h.isWord, text.take start, after, ?_, ?_,
      h.head?_after hafter⟩
    · rw [← hafter, List.take_append_drop]
    · intro hlast
      have hstart := (List.getElem?_eq_some_iff.1 h.getElem?_start).1
      rw [List.getLast?_eq_getElem?, List.length_take, Nat.min_eq_left (Nat.le_of_lt hstart)] at hlast
      cases start with
      | zero => simp at hlast
      | succ i =>
        rw [Nat.add_sub_cancel, List.getElem?_take_of_lt (Nat.lt_succ_self i)] at hlast
        exact h.no_dollar_before i rfl hlast

/-- The tokens of a text are those that stand in it as a whole. -/
theorem mem_ofText_iff {token : Token} {text : String} :
    token ∈ ofText text ↔
      ∃ dollars name, token = ofRun dollars name ∧ OccursIn dollars name text.toList := by
  rw [mem_ofText_iff_standsIn]
  constructor
  · intro ⟨⟨start, dollars, name⟩, hstands, htoken⟩
    exact ⟨dollars, name, htoken, occursIn_iff_exists_standsIn.2 ⟨start, hstands⟩⟩
  · intro ⟨dollars, name, htoken, hoccurs⟩
    obtain ⟨start, hstands⟩ := occursIn_iff_exists_standsIn.1 hoccurs
    exact ⟨_, hstands, htoken⟩

/-- Some text ends in so many dollar signs and no more. -/
theorem exists_dollars_at_end (cs : List Char) :
    ∃ before dollars, cs = before ++ List.replicate dollars '$' ∧
      before.getLast? ≠ some '$' := by
  induction cs with
  | nil => exact ⟨[], 0, rfl, by simp⟩
  | cons c rest ih =>
    obtain ⟨before, dollars, rfl, hbefore⟩ := ih
    cases before with
    | cons d more => exact ⟨c :: d :: more, dollars, rfl, by simpa using hbefore⟩
    | nil =>
      by_cases hc : c = '$'
      · exact ⟨[], dollars + 1, by rw [hc]; rfl, by simp⟩
      · exact ⟨[c], dollars, rfl, by simpa using hc⟩

/-- A word character with two dollar signs right before it belongs to a variable,
whatever stands before the signs. -/
theorem exists_variable_of_run {text : String} {c : Char} {before after : List Char}
    (htext : text.toList = before ++ '$' :: '$' :: c :: after) (hword : Text.isWord c = true) :
    ∃ name, .variable name ∈ ofText text := by
  obtain ⟨front, dollars, rfl, hfront⟩ := exists_dollars_at_end before
  -- The two signs end a run, and the character starts a name.
  refine ⟨String.ofList (c :: after.takeWhile Text.isWord), mem_ofText_iff.2
    ⟨dollars + 2, _, by rw [ofRun, if_pos (by omega)], by omega, List.cons_ne_nil _ _, ?_, front,
      after.dropWhile Text.isWord, ?_, hfront, ?_⟩⟩
  · exact List.forall_mem_cons.2 ⟨hword, List.all_eq_true.1 List.all_takeWhile⟩
  · rw [htext, ← List.replicate_append_replicate, List.cons_append,
      List.takeWhile_append_dropWhile, List.append_assoc, List.append_assoc]
    rfl
  · exact head?_after_name

/-! ## The search -/

/-- The matches that a search for the pattern finds from a position on.  Each is the first
that starts there or later, and as long as it can be; the search goes on at its end. -/
inductive Searched (text : List Char) : Nat → List Place → Prop
  | last {position : Nat}
      (h : ∀ other : Place, other.MatchesIn text → other.start < position) :
      Searched text position []
  | next {position : Nat} {place : Place} {places : List Place} (h : place.MatchesIn text)
      (hle : position ≤ place.start)
      (hfirst : ∀ other : Place, other.MatchesIn text → position ≤ other.start →
        place.start ≤ other.start)
      (hlongest : ∀ other : Place, other.MatchesIn text → other.start = place.start →
        other.stop ≤ place.stop)
      (hrest : Searched text place.stop places) : Searched text position (place :: places)

/-- A match is part of a token that stands in the text, which starts with the dollar
signs before it. -/
theorem Place.MatchesIn.exists_standsIn {place : Place} (h : place.MatchesIn text)
    (hle : position ≤ place.start) (hbefore : ∀ i, i + 1 = position → text[i]? ≠ some '$') :
    ∃ whole : Place, whole.StandsIn text ∧ position ≤ whole.start ∧ whole.start ≤ place.start := by
  obtain ⟨after, hafter⟩ := h.exists_drop_eq
  obtain ⟨front, dollars, hfront, hlast⟩ := exists_dollars_at_end (text.take place.start)
  have htext : text = front ++ (List.replicate (dollars + place.dollars) '$' ++
      ((place.name ++ after.takeWhile Text.isWord) ++ after.dropWhile Text.isWord)) := by
    rw [List.append_assoc, List.takeWhile_append_dropWhile, ← List.replicate_append_replicate,
      List.append_assoc, ← hafter, ← List.append_assoc, ← hfront, List.take_append_drop]
  have hstart : place.start = front.length + dollars := by
    have hlength := congrArg List.length hfront
    have hinside : place.start < text.length := (List.getElem?_eq_some_iff.1 h.getElem?_start).1
    rw [List.length_take, List.length_append, List.length_replicate] at hlength
    omega
  have hword : ∀ c ∈ place.name ++ after.takeWhile Text.isWord, Text.isWord c = true :=
    List.forall_mem_append.2 ⟨h.isWord, List.all_eq_true.1 List.all_takeWhile⟩
  have hwhole := standsIn_of_append (Nat.add_pos_right dollars h.dollars_pos)
    (by simp [h.name_ne_nil]) hword htext hlast head?_after_name
  refine ⟨_, hwhole, Nat.le_of_not_lt fun hlt => ?_, ?_⟩
  · -- A dollar sign would stand right before the position from which the search goes on.
    obtain ⟨i, rfl⟩ : ∃ i, position = i + 1 := ⟨position - 1, (Nat.sub_add_cancel
      (Nat.zero_lt_of_lt hlt)).symm⟩
    obtain ⟨rest, hrest⟩ := hwhole.exists_drop_eq
    refine hbefore i rfl (Place.getElem?_dollar hrest (Nat.le_of_lt_succ hlt) ?_)
    show i < front.length + (dollars + place.dollars)
    omega
  · rw [hstart]
    exact Nat.le_add_right _ _

/-- The search finds the tokens that stand in a text. -/
theorem Inventory.searched (h : Inventory text position places)
    (hbefore : ∀ i, i + 1 = position → text[i]? ≠ some '$') : Searched text position places := by
  induction places generalizing position with
  | nil =>
    refine .last fun other hother => Nat.lt_of_not_le fun hle => ?_
    obtain ⟨whole, hwhole, hstart, -⟩ := hother.exists_standsIn hle hbefore
    exact List.not_mem_nil ((h.mem_iff whole).2 ⟨hwhole, hstart⟩)
  | cons place places ih =>
    obtain ⟨hstands, hle⟩ := (h.mem_iff place).1 List.mem_cons_self
    obtain ⟨hlater, hordered⟩ := List.pairwise_cons.1 h.ordered
    have hpos := hstands.start_lt_stop
    have hrest : Inventory text place.stop places := by
      refine ⟨hordered, fun other => ⟨fun hmem => ?_, fun hother => ?_⟩⟩
      · exact ⟨((h.mem_iff other).1 (List.mem_cons_of_mem _ hmem)).1, hlater other hmem⟩
      · rcases List.mem_cons.1 ((h.mem_iff other).2 ⟨hother.1, by omega⟩) with rfl | hmem
        · exact absurd hother.2 (Nat.not_le.2 hpos)
        · exact hmem
    refine .next hstands.toMatchesIn hle ?_ (fun other hother hstart =>
      (hstands.stop_le hother hstart).2) (ih hrest fun i hi => hstands.no_dollar_before_stop hi)
    intro other hother hstart
    obtain ⟨whole, hwhole, hfrom, hto⟩ := hother.exists_standsIn hstart hbefore
    rcases List.mem_cons.1 ((h.mem_iff whole).2 ⟨hwhole, hfrom⟩) with rfl | hmem
    · exact hto
    · have := hlater whole hmem
      omega

/-- A run of dollar signs that no word character follows has no part in a token. -/
theorem Place.StandsIn.apart_of_lone {place : Place} (h : place.StandsIn text) {dollars : Nat}
    {rest : List Char} (hpos : 0 < dollars)
    (hdrop : text.drop position = List.replicate dollars '$' ++ rest)
    (hbefore : ∀ i, i + 1 = position → text[i]? ≠ some '$')
    (hrest : ∀ c, rest.head? = some c → c ≠ '$' ∧ Text.isWord c = false) :
    place.stop ≤ position ∨ position + dollars ≤ place.start := by
  refine Decidable.byContradiction fun hpart => ?_
  obtain ⟨after, hafter⟩ := h.exists_drop_eq
  rcases Nat.lt_or_ge place.start position with hlt | hge
  · -- The run starts within the token, where no run of dollar signs starts.
    have hdollar := Place.getElem?_dollar hdrop (Nat.le_refl _) (by omega)
    by_cases hname : place.start + place.dollars ≤ position
    · obtain ⟨c, hc, hword⟩ := h.isWord_of_mem_name hname (by omega)
      rw [hdollar] at hc
      exact ne_dollar_of_isWord hword (Option.some.inj hc).symm
    · exact hbefore (position - 1) (by omega)
        (Place.getElem?_dollar hafter (by omega) (by omega))
  · -- The token starts within the run, so with it, and its name follows.
    have hstart : place.start = position := (h.start_cases hdrop hge).resolve_right (by omega)
    rw [hstart, hdrop] at hafter
    obtain ⟨-, hname⟩ := Place.replicate_append_inj hafter
      (fun hhead => (hrest '$' hhead).1 rfl) (h.head?_name_ne after)
    obtain ⟨c, name, hcons⟩ := List.exists_cons_of_ne_nil h.name_ne_nil
    rw [hcons] at hname
    have hc := (hrest c (by rw [hname]; rfl)).2
    rw [h.isWord c (hcons ▸ List.mem_cons_self)] at hc
    cases hc

/-- The scan finds every token of a text once and in order.  There are places that do not
overlap and come one after the other, at which stand exactly the tokens of the text: each
run of dollar signs that a word character follows, with the run of word characters after
it.  What is found is one token for each of them, a variable with the name after two or
more signs, and else the name with its sign; a run of dollar signs that no word character
follows has no part in any.  The places are also those that a search for the pattern finds,
leftmost first and as long as possible. -/
theorem ofText_finds_all (text : String) :
    ∃ places : List Place,
      (∀ place, place ∈ places ↔ place.StandsIn text.toList) ∧
      places.Pairwise (fun earlier later => earlier.stop ≤ later.start) ∧
      List.Forall₂ Place.Denotes places (ofText text) ∧
      (∀ position dollars rest, 0 < dollars →
        text.toList.drop position = List.replicate dollars '$' ++ rest →
        (∀ i, i + 1 = position → text.toList[i]? ≠ some '$') →
        (∀ c, rest.head? = some c → c ≠ '$' ∧ Text.isWord c = false) →
        ∀ place ∈ places, place.stop ≤ position ∨ position + dollars ≤ place.start) ∧
      Searched text.toList 0 places := by
  obtain ⟨places, hfound⟩ := (exists_found text.toList text.toList).1 0 0 rfl (by simp)
  have hmem : ∀ place, place ∈ places ↔ place.StandsIn text.toList := fun place => by
    rw [hfound.mem_iff]
    exact and_iff_left (Nat.zero_le _)
  refine ⟨places, hmem, hfound.ordered, hfound.denotes, ?_, hfound.searched (by simp)⟩
  intro position dollars rest hpos hdrop hbefore hrest place hplace
  exact ((hmem place).1 hplace).apart_of_lone hpos hdrop hbefore hrest

end Token

end DocGate
