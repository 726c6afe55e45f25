import CodeVault.Proofs.Artifact.RoundTrip
import CodeVault.Proofs.Session.Open

/-!
# What a look-up answers

* an artifact that is read has the kind, the id and the level of its entry and the name in its
  payload (`readArtifact_ok`), whatever the rest of the payload is, and whatever process reads it;
* **a look-up answers the artifact of a loaded entry that answers the query** (`lookup_ok`).
-/

namespace CodeVault

open Bytes

/-! ## 1. Reading -/

namespace Context

/-- What is behind the section descriptors says nothing about what the artifact is called. -/
theorem answers_readBody (context : Context) (entry : Entry) (name : String)
    (descriptors : Sections SectionDescriptor) :
    Answers (fun artifact : Artifact => artifact.kind = entry.kind ∧ artifact.id = entry.id ∧
      artifact.name = name ∧ artifact.compile = Artifact.compileInfo entry)
      (context.readBody entry name descriptors) := by
  unfold readBody
  refine Answers.bind fun read => Answers.bind fun _ => Answers.bind fun count => ?_
  refine Answers.bind fun sections => Answers.bind fun _ => Answers.bind fun tables => ?_
  refine Answers.bind fun references => ?_
  extract_lets finish
  split
  · exact Answers.bind fun dependencies => answers_pure ⟨rfl, rfl, rfl, rfl⟩
  · exact Answers.bind fun dependencies => answers_pure ⟨rfl, rfl, rfl, rfl⟩

/-- **An artifact that is read is called what its entry and the name in its payload say.** -/
theorem readArtifact_ok {context : Context} {payload : Bytes} {entry : Entry} {artifact : Artifact}
    (h : context.readArtifact payload entry = .ok artifact) :
    Payload.peekName payload entry = .ok artifact.name ∧ artifact.kind = entry.kind ∧
      artifact.id = entry.id ∧ artifact.compile = Artifact.compileInfo entry := by
  obtain ⟨⟨read, finish⟩, hread, rfl⟩ := except_map_eq_ok.1 h
  obtain ⟨name, descriptors, _, _, hname, -, -, hbody, -⟩ := readPayload_eq_ok hread
  obtain ⟨hkind, hid, rfl, hcompile⟩ := context.answers_readBody entry name descriptors hbody
  exact ⟨hname, hkind, hid, hcompile⟩

end Context

/-! ## 2. Finding -/

/-- What the search finds is the place of an entry that answers the query. -/
theorem SearchTable.answers_of_find? {keys : Array SearchKey} {entries : Array Entry}
    {query : Query} {place : UInt32} (h : find? keys entries query = some place) :
    ∃ entry, entries[place.toNat]? = some entry ∧ entry.answers query = true := by
  unfold find? at h
  split at h
  · cases h
  · obtain ⟨key, hfound, rfl⟩ := Option.map_eq_some_iff.1 h
    have hanswers : keyAnswers entries query key = true := List.find?_some hfound
    unfold keyAnswers at hanswers
    split at hanswers
    · rename_i entry hentry
      exact ⟨entry, hentry, hanswers⟩
    · cases hanswers

namespace Session

variable {process : LiveProcess} {session : Session} {query : Query}

/-- What is found is a loaded entry that answers the query. -/
theorem find_some {id : EntryId} {found : Session} (h : session.find query = (some id, found)) :
    ∃ i entry counters, id = .loaded i ∧ session.entry? id = some entry ∧
      entry.answers query = true ∧
      found = { session with counters } := by
  unfold find at h
  split at h
  · cases h
  · obtain ⟨hhit, hfound⟩ := Prod.mk.inj h
    obtain ⟨place, hplace, rfl⟩ := Option.map_eq_some_iff.1 hhit
    obtain ⟨entry, hentry, hanswers⟩ := SearchTable.answers_of_find? hplace
    exact ⟨_, entry, _, rfl, hentry, hanswers, hfound.symm⟩

/-- What is loaded was read from the bytes of its entry. -/
theorem load_ok {id : EntryId} {artifact : Artifact} {last : Session}
    (h : load process id session = .ok artifact last) :
    ∃ entry bytes, session.entry? id = some entry ∧ session.payload? id entry = some bytes ∧
      Context.readArtifact ⟨process, entry.flags.forPreload⟩ bytes entry = .ok artifact := by
  rcases load_cases process session id with
    ⟨stop, -, hload⟩ | ⟨container, entry, read, -, -, hcontainer, hentry, -, hread, hload⟩ |
      ⟨cause, -, hload⟩
  · cases hload.symm.trans h
  · cases hload.symm.trans h
    unfold readEntry at hread
    split at hread
    · cases hread
    · rename_i bytes hbytes
      cases id with
      | stored i => cases hload
      | loaded i =>
        exact ⟨entry, bytes, hentry, payload?_loaded.2 ⟨container, hcontainer, hbytes⟩, hread⟩
  · obtain ⟨stop, failed, -, hreport⟩ := reportAndFail_eq (α := Artifact) { session with
      index := session.index.markLoadFail id
      counters := session.counters.recordLoadFailure } .loading cause
    cases (hload.trans hreport).symm.trans h

/-- **A look-up answers the artifact of a loaded entry that answers the query.** -/
theorem lookup_ok {artifact : Artifact} {last : Session}
    (h : lookup process query session = .ok (some artifact) last) :
    ∃ i entry bytes, session.entry? (.loaded i) = some entry ∧ entry.answers query = true ∧
      session.payload? (.loaded i) entry = some bytes ∧
      Context.readArtifact ⟨process, entry.flags.forPreload⟩ bytes entry = .ok artifact := by
  unfold lookup at h
  split at h
  · cases h
  · rename_i id found hfind
    obtain ⟨i, entry, counters, rfl, hentry, hanswers, rfl⟩ := find_some hfind
    split at h
    · rename_i read after hload
      cases h
      obtain ⟨other, bytes, hother, hbytes, hread⟩ := load_ok hload
      cases hentry.symm.trans hother
      exact ⟨i, entry, bytes, hentry, hanswers, hbytes, hread⟩
    · cases h
    · cases h

end Session

end CodeVault
