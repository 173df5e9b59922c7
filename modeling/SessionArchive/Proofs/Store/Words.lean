import SessionArchive.Proofs.Message.Words
import SessionArchive.Proofs.Pattern.Escaped
import SessionArchive.Proofs.Store.Search

/-!
# A search for a word finds every message that says it

A search looks at the encodings of messages and not at what they say, and yet misses nothing: the
first occurrence of a word in an encoding is a match (`Match.exists_isOn`), and what is shown of a
match holds it whole. So with a pattern that finds a word, such as the one that `Pattern.escape`
writes, `Store.searchMessages_word` gives a hit for each message on the shelf in which it is said.
-/

set_option autoImplicit false

namespace SessionArchive

open Store (Matcher)

namespace Match

/-- A word that stands in the encoding of a message on the shelf is matched there. -/
theorem exists_isOn {find : Matcher} {word : String} (hfinds : Pattern.Finds find word)
    {shelf : Shelf} {id : String} {loaded : LoadedSession} (hload : shelf.load id = some loaded)
    {place : Nat} {message : Message} (hget : loaded.session.messages[place]? = some message)
    (hword : word.toList <:+: message.encode.toList) :
    ∃ m : Match, m.IsOn find shelf ∧ m.sessionId = id ∧ m.place = place ∧ m.message = message ∧
      m.matched = word.toList := by
  obtain ⟨span, hfirst⟩ := Pattern.exists_firstAt hword
  have hfound : find message.encode = some span := (hfinds _ _).mpr hfirst
  obtain ⟨before, after, htext, rfl, -⟩ := hfirst
  refine ⟨⟨id, place, message, before, word.toList, after⟩, ?_, rfl, rfl, rfl, rfl⟩
  exact ⟨⟨loaded, hload, hget⟩, htext, hfound⟩

/-- What is shown of a match holds the text that is matched. -/
theorem infix_snippet (m : Match) : m.matched <:+: m.hit.snippet.toList := by
  rw [hit, String.toList_ofList]
  exact List.infix_append _ _ _

end Match

namespace Store

/-- After every run a search for a word finds each message on the shelf that says the word, whatever
stands around it, and shows the word. -/
theorem searchMessages_word (path : Option String) (start : Int64)
    (run : List (Int64 × Operation)) (pattern : String) {compiled : Pattern}
    (hcompile : Pattern.compile pattern = .ok compiled) {word : String}
    (hfinds : Pattern.Finds compiled.find word) (hword : ∀ c ∈ word.toList, Json.IsUnescaped c) :
    let store := (Store.fresh path start).play run
    let shelf := Shelf.play [] (Store.fresh path start) run
    ∃ hits, store.searchMessages pattern 0 = .ok hits ∧
      ∀ (id : String) (loaded : LoadedSession) (place : Nat) (message : Message),
        shelf.load id = some loaded → loaded.session.messages[place]? = some message →
        ∀ part ∈ message.parts, ∀ content : String, part.content? = some content →
          word.toList <:+: content.toList →
          ∃ hit ∈ hits, hit.sessionId = id ∧ hit.sequence = Int64.ofInt place ∧
            hit.role = message.role.name ∧ hit.createdAt = message.createdAt ∧
            word.toList <:+: hit.snippet.toList := by
  have hempty : Tied (fun _ => True) (Database.new start) [] := .nil
  obtain ⟨db, hrun, hsound, htied⟩ :=
    hempty.play (Database.sound_new start) path run fun step _ => step.2.saves_true
  have hspans : ∀ text span, compiled.find text = some span →
      Pattern.Spans text.toList span := fun _ _ => Pattern.find_spans
  obtain ⟨found, hsearch, hmem, -⟩ := htied.exists_found hsound pattern hspans
  -- the matches on the shelf are all that is found, and none of them is left out
  intro store shelf
  refine ⟨found.map Match.hit, ?_, ?_⟩
  · have hall : (db.searchMessages pattern compiled.find 0).map Prod.fst =
        .ok (found.map Match.hit) := hsearch 0
    simp only [store, Store.fresh, hrun, Store.searchMessages,
      searchMessagesBy_of_ok (patternEngine_of_ok hcompile), hall]
  · intro id loaded place message hload hget part hpart content hcontent hsaid
    obtain ⟨m, hon, rfl, rfl, rfl, hmatched⟩ := Match.exists_isOn hfinds hload hget
      (Message.infix_encode hpart hcontent hsaid hword)
    refine ⟨m.hit, List.mem_map_of_mem ((hmem m).mpr hon), rfl, rfl, rfl, rfl, ?_⟩
    rw [← hmatched]
    exact m.infix_snippet

/-- A session is saved, and saved again with the output of a tool, in which a word of signs and of
letters beyond ASCII stands between characters that are escaped; another session is saved. -/
def toldRun : List (Int64 × Operation) :=
  [(5, .saveSession ⟨"s", 1, 1, "", "p", "m", "/", [.ofText .user "ask" 1]⟩
      ⟨"h", "o", "p", "main"⟩),
    (6, .saveSession ⟨"s", 1, 5, "", "p", "m", "/", [.ofText .user "ask" 1,
      ⟨.tool, [.image "" "", .toolResult "c" "\"\\\n→größe (Δ)\"\t" false], 3⟩]⟩
      ⟨"h", "o", "p", "main"⟩),
    (7, .saveSession ⟨"t", 1, 1, "", "p", "m", "/", []⟩ ⟨"h", "o", "p", "dev"⟩)]

theorem searchMessages_word_toldRun :
    (∃ compiled, Pattern.compile "größe \\(Δ\\)" = .ok compiled ∧
        Pattern.Finds compiled.find "größe (Δ)") ∧
      (∀ c ∈ "größe (Δ)".toList, Json.IsUnescaped c) ∧
      ∃ hits, ((Store.fresh none 0).play toldRun).searchMessages "größe \\(Δ\\)" 0 = .ok hits ∧
        ∃ hit ∈ hits, hit.sessionId = "s" ∧ hit.sequence = 1 ∧ hit.role = "tool" ∧
          hit.createdAt = 3 ∧ "größe (Δ)".toList <:+: hit.snippet.toList := by
  have hescape : Pattern.escape "größe (Δ)" = "größe \\(Δ\\)" := by decide +kernel
  have hsize : 360 * "größe (Δ)".length ≤ Pattern.greatestSize := by decide +kernel
  have hall : "größe (Δ)".toList.all (fun c => decide (Json.IsUnescaped c)) = true := by
    decide +kernel
  have hword : ∀ c ∈ "größe (Δ)".toList, Json.IsUnescaped c := fun c hc =>
    of_decide_eq_true (List.all_eq_true.mp hall c hc)
  have hsaid : "größe (Δ)".toList <:+: "\"\\\n→größe (Δ)\"\t".toList :=
    ⟨"\"\\\n→".toList, "\"\t".toList, by decide +kernel⟩
  have hstored : ((Shelf.play [] (Store.fresh none 0) toldRun).load "s").bind (fun loaded =>
      loaded.session.messages[1]?.map fun message =>
        (message.role, message.createdAt, message.parts.map Part.content?)) =
          some (.tool, 3, [none, some "\"\\\n→größe (Δ)\"\t"]) := by decide +kernel
  obtain ⟨loaded, hload, hmessage⟩ := Option.bind_eq_some_iff.mp hstored
  obtain ⟨⟨role, parts, createdAt⟩, hget, hfields⟩ := Option.map_eq_some_iff.mp hmessage
  simp only [Prod.mk.injEq] at hfields
  obtain ⟨rfl, rfl, hcontents⟩ := hfields
  have hpart : some "\"\\\n→größe (Δ)\"\t" ∈ parts.map Part.content? := by
    rw [hcontents]
    exact .tail _ (.head _)
  obtain ⟨part, hpart, hcontent⟩ := List.mem_map.mp hpart
  obtain ⟨compiled, hcompile, hfinds⟩ := Pattern.exists_finds hsize
  rw [hescape] at hcompile
  obtain ⟨hits, hsearch, hfound⟩ := searchMessages_word none 0 toldRun _ hcompile hfinds hword
  exact ⟨⟨compiled, hcompile, hfinds⟩, hword, hits, hsearch,
    hfound "s" loaded 1 _ hload hget part hpart _ hcontent hsaid⟩

end Store

end SessionArchive
