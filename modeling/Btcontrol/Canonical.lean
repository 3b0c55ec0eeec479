import Btcontrol.Lenient
import Btcontrol.Load

/-! What the C++ decoder accepts is encoded back to the bytes it was read from. The exception
is a field without one of the three types: the decoder passes over it, the encoder misses it, or
the whole map where no other field was stored. -/
namespace Btcontrol.Canonical

open DataType Bytes Exec FBTCtlMessage

/-- What the encoder returns for something read up to `s`: the bytes it was read from, unless
a field without a type lies among them. -/
def Wrote (s : Wire.Scan) (result : Except Err Str) (bytes : Str) : Prop :=
  if s.untyped then ∃ e, result = .error e else result = .ok bytes

theorem wrote_append {s s' : Wire.Scan} {x y : Except Err Str} {front back : Str}
    (noted : s.untyped = true → s'.untyped = true) (first : Wrote s x front)
    (more : s.untyped = false → Wrote s' y back) :
    Wrote s' (do return (← x) ++ (← y)) (front ++ back) := by
  cases untyped : s.untyped with
  | true =>
    simp only [Wrote,untyped,↓reduceIte,noted untyped] at first ⊢
    obtain ⟨e,rfl⟩ := first
    exact ⟨e,rfl⟩
  | false =>
    have next := more untyped
    simp only [Wrote,untyped,Bool.false_eq_true,↓reduceIte] at first
    subst first
    cases later : s'.untyped with
    | true =>
      simp only [Wrote,later,↓reduceIte] at next ⊢
      obtain ⟨e,rfl⟩ := next
      exact ⟨e,rfl⟩
    | false =>
      simp only [Wrote,later,Bool.false_eq_true,↓reduceIte] at next ⊢
      subst next
      rfl

theorem wrote_ok {s : Wire.Scan} {result : Except Err Str} {bytes : Str} (typed : s.untyped = false)
    (written : result = .ok bytes) : Wrote s result bytes := by
  simpa only [Wrote,typed,Bool.false_eq_true,↓reduceIte] using written

theorem wrote_cons {s s' : Wire.Scan} {x : Except Err Str} {bytes : Str} (head : Str)
    (same : s'.untyped = s.untyped) (written : Wrote s x bytes) :
    Wrote s' (do return head ++ (← x)) (head ++ bytes) := by
  cases untyped : s.untyped with
  | true =>
    simp only [Wrote,same,untyped,↓reduceIte] at written ⊢
    obtain ⟨e,rfl⟩ := written
    exact ⟨e,rfl⟩
  | false =>
    simp only [Wrote,same,untyped,Bool.false_eq_true,↓reduceIte] at written ⊢
    subst written
    rfl

/-- A step of the reading that has returned without a flaw. -/
theorem noted_back {read : Wire.Reading α} (noted : Moves Wire.Noted read) {s s' : Wire.Scan} {a : α}
    (done : read s = .ok a s') (clean : s'.flawed = false) :
    s.flawed = false ∧ (s.untyped = true → s'.untyped = true) := by
  have moved := noted s
  rw [done] at moved
  refine ⟨Bool.eq_false_iff.mpr (fun flawed => ?_),moved.2⟩
  rw [final_ok] at moved
  rw [moved.1 flawed] at clean
  cases clean

theorem byte_returned {s s' : Wire.Scan} {b : UInt8} (done : Wire.byte s = .ok b s') :
    s.rest = b :: s'.rest ∧ s'.untyped = s.untyped := by
  simp only [Wire.byte] at done
  split at done
  · cases done
  · rename_i left
    cases done
    exact ⟨left,rfl⟩

theorem number_returned {s s' : Wire.Scan} {i : Int} (done : Wire.number s = .ok i s') :
    s.rest = le 4 (pattern32 i) ++ s'.rest ∧ s'.untyped = s.untyped := by
  simp only [Wire.number] at done
  split at done
  · cases done
  · rename_i enough
    cases done
    have size : (s.rest.take 4).length = 4 := by
      rw [List.length_take]
      omega
    have below := leValue_lt (s.rest.take 4)
    rw [size] at below
    have front := le_leValue (s.rest.take 4)
    rw [size] at front
    rw [pattern32_signed32 _ (by omega),front]
    exact ⟨(List.take_append_drop 4 s.rest).symm,rfl⟩

theorem text_returned {len : Nat} {s s' : Wire.Scan} {m : FBTCtlMessage}
    (done : Wire.text len s = .ok m s') (clean : s'.flawed = false) :
    ∃ sval, m = .string sval ∧ sval.length = len ∧ s.rest = sval ++ s'.rest ∧
      s'.untyped = s.untyped := by
  simp only [Wire.text] at done
  split at done
  · cases done
    cases clean
  · rename_i enough
    cases done
    refine ⟨_,rfl,?_,(List.take_append_drop len s.rest).symm,rfl⟩
    rw [List.length_take]
    omega

theorem keep_returned {type : Nat} {name : Str} {m : FBTCtlMessage}
    {stored fields : List (Str × FBTCtlMessage)} {s s' : Wire.Scan}
    (done : Wire.keep type name m stored s = .ok fields s') :
    fields = insert name m stored ∧ s'.rest = s.rest ∧ s'.untyped = s.untyped := by
  cases done
  exact ⟨rfl,rfl,rfl⟩

def Rewritten (messageLayouts : MessageLayouts) (it : MessageLayout) (m : FBTCtlMessage)
    (s s' : Wire.Scan) : Prop :=
  ∃ front, s.rest = front ++ s'.rest ∧ (s.untyped = false → Wrote s' (encode messageLayouts m it) front)

theorem times_returned {messageLayouts : MessageLayouts} {it : MessageLayout}
    {read : Wire.Reading FBTCtlMessage} (noted : Moves Wire.Noted read)
    (each : ∀ m s s', read s = .ok m s' → s'.flawed = false → Rewritten messageLayouts it m s s')
    (n : Nat) (elements : List FBTCtlMessage) (s s' : Wire.Scan)
    (done : Wire.times read n s = .ok elements s') (clean : s'.flawed = false) :
    elements.length = n ∧ ∃ front, s.rest = front ++ s'.rest ∧
      (s.untyped = false → Wrote s' (encodeArray messageLayouts elements it) front) := by
  induction n generalizing s elements with
  | zero =>
    cases done
    refine ⟨rfl,[],rfl,fun typed => ?_⟩
    exact wrote_ok typed rfl
  | succ n ih =>
    obtain ⟨first,s1,head,done⟩ := returned_of_bind done
    obtain ⟨more,s2,tail,done⟩ := returned_of_bind done
    cases done
    obtain ⟨clean1,kept⟩ := noted_back (Wire.noted_times noted n) tail clean
    obtain ⟨front,split,written⟩ := each first s s1 head clean1
    obtain ⟨length,back,split',written'⟩ := ih more s1 tail
    refine ⟨congrArg Nat.succ length,front ++ back,?_,fun typed => ?_⟩
    · rw [split,split',List.append_assoc]
    · exact wrote_append kept (written typed) written'

/-- What one field leaves behind its tag: a value of the layout's type, stored under its name, or
nothing. -/
theorem field_returned {messageLayouts : MessageLayouts} {it : MessageLayout}
    {read : Wire.Reading FBTCtlMessage} (noted : Moves Wire.Noted read)
    (each : it.type = ARRAY → ∀ m s s', read s = .ok m s' → s'.flawed = false →
      Rewritten messageLayouts it m s s')
    {type : Nat} {stored fields : List (Str × FBTCtlMessage)} {s s' : Wire.Scan}
    (done : Wire.field read it type stored s = .ok fields s') (clean : s'.flawed = false) :
    (∃ value front, fields = insert it.name value stored ∧ value.type = it.type ∧
      s.rest = front ++ s'.rest ∧
      (s.untyped = false → Wrote s' (encode messageLayouts value it) (le 1 it.type ++ front))) ∨
    (fields = stored ∧ s'.rest = s.rest ∧ s'.untyped = true) := by
  obtain ⟨kind,name,childLayouts⟩ := it
  rcases kind with _ | _ | _ | _ | kind
  · cases done
    exact .inr ⟨rfl,rfl,rfl⟩
  · obtain ⟨ival,s1,payload,done⟩ := returned_of_bind done
    obtain ⟨front,same⟩ := number_returned payload
    obtain ⟨rfl,rest,untyped⟩ := keep_returned done
    refine .inl ⟨.int ival,_,rfl,rfl,by rw [rest]; exact front,fun typed => wrote_ok ?_ ?_⟩
    · rw [untyped,same,typed]
    · simp only [encode]
      rfl
  · obtain ⟨low,s1,first,done⟩ := returned_of_bind done
    obtain ⟨high,s2,second,done⟩ := returned_of_bind done
    obtain ⟨m,s3,payload,done⟩ := returned_of_bind done
    obtain ⟨clean3,_⟩ := noted_back (Wire.noted_keep _ _ _ _) done clean
    obtain ⟨at1,same1⟩ := byte_returned first
    obtain ⟨at2,same2⟩ := byte_returned second
    obtain ⟨sval,rfl,length,at3,same3⟩ := text_returned payload clean3
    obtain ⟨rfl,rest,untyped⟩ := keep_returned done
    have size := le_leValue [low,high]
    simp only [List.length_cons,List.length_nil,Nat.reduceAdd,leValue,Nat.mul_zero,Nat.add_zero] at size
    have h0 := low.toNat_lt
    have h1 := high.toNat_lt
    have short : ¬signed32 (sval.length % 2 ^ 32) > 0x10000 := by
      simp only [signed32,length]
      omega
    refine .inl ⟨.string sval,[low,high] ++ sval,rfl,rfl,?_,fun typed => wrote_ok ?_ ?_⟩
    · rw [at1,at2,at3,rest]
      rfl
    · rw [untyped,same3,same2,same1,typed]
    · simp only [encode,if_neg short]
      rw [length,size,List.append_assoc]
      rfl
  · obtain ⟨n,s1,first,done⟩ := returned_of_bind done
    obtain ⟨elements,s2,body,done⟩ := returned_of_bind done
    obtain ⟨clean2,_⟩ := noted_back (Wire.noted_keep _ _ _ _) done clean
    obtain ⟨at1,same1⟩ := byte_returned first
    obtain ⟨length,front,at2,written⟩ := times_returned noted (each rfl) n.toNat elements s1 s2 body clean2
    obtain ⟨rfl,rest,untyped⟩ := keep_returned done
    have count : le 1 elements.length = [n] := by simp [le,length]
    refine .inl ⟨.array elements,n :: front,rfl,rfl,?_,fun typed => ?_⟩
    · rw [at1,at2,rest]
      rfl
    · have body := wrote_cons (le 1 ARRAY ++ le 1 elements.length) untyped (written (same1.trans typed))
      simp only [encode]
      rw [count,List.append_assoc] at body
      rw [count]
      exact body
  · cases done
    exact .inr ⟨rfl,rfl,rfl⟩

/-- A node in which nothing was stored, although its layout has fields: the map that the encoder
looks into is not there. Only fields without a type can have been read. -/
theorem encode_bare (messageLayouts : MessageLayouts) {it : MessageLayout} (fields : it.childLayouts ≠ [])
    (type : Nat) : encode messageLayouts (decoded it.childLayouts type []) it = .error .nullData := by
  have bare : decoded it.childLayouts type [] = if type = UNDEF then .undef else .null type :=
    if_pos ⟨rfl,.inl fields⟩
  rw [bare]
  cases listed : it.childLayouts with
  | nil => exact absurd listed fields
  | cons first rest =>
    split
    · simp only [encode,listed]
    · simp only [encode,listed,ite_self]

theorem writeFields_bare (messageLayouts : MessageLayouts) (type : Nat) {layouts : List MessageLayout}
    (some : layouts ≠ []) : ∃ e, writeFields messageLayouts type
      (fun name => (writers messageLayouts []).lookup name) layouts = .error e := by
  cases layouts with
  | nil => exact absurd rfl some
  | cons it rest =>
    simp only [writeFields,writers,List.lookup_nil]
    cases messageTypeName messageLayouts type with
    | error e => exact ⟨e,rfl⟩
    | ok struct => exact ⟨_,rfl⟩

/-- What the encoder makes of a decoded node, from what it makes of the fields. -/
theorem wrote_decoded {messageLayouts : MessageLayouts} (it : MessageLayout) (type : Nat)
    {fields : List (Str × FBTCtlMessage)} {s : Wire.Scan} {front : Str}
    (struct : STRUCT ≤ type ∨ it.childLayouts ≠ [])
    (written : Wrote s (writeFields messageLayouts type
      (fun name => (writers messageLayouts fields).lookup name) it.childLayouts) front) :
    Wrote s (encode messageLayouts (decoded it.childLayouts type fields) it) (le 1 type ++ front) := by
  by_cases bare : fields = [] ∧ it.childLayouts ≠ []
  · obtain ⟨rfl,some⟩ := bare
    obtain ⟨e,failed⟩ := writeFields_bare messageLayouts type some
    rw [encode_bare messageLayouts some]
    cases untyped : s.untyped with
    | true =>
      simp only [Wrote,untyped,↓reduceIte]
      exact ⟨_,rfl⟩
    | false =>
      simp only [Wrote,untyped,Bool.false_eq_true,↓reduceIte,failed] at written
      cases written
  · have stored : decoded it.childLayouts type fields = .struct type fields := by
      refine if_neg ?_
      rintro ⟨empty,some | below⟩
      · exact bare ⟨List.isEmpty_iff.mp empty,some⟩
      · rcases struct with above | some
        · exact Nat.not_lt.mpr above below
        · exact bare ⟨List.isEmpty_iff.mp empty,some⟩
    rw [stored]
    exact wrote_cons (le 1 type) rfl written

theorem distinct_children (it : MessageLayout) (array : it.type = ARRAY) (distinct : Java.Distinct it) :
    it.childLayouts ≠ [] ∧ (it.childLayouts.map MessageLayout.name).Nodup ∧
      Java.AllDistinct it.childLayouts := by
  obtain ⟨kind,name,childLayouts⟩ := it
  exact distinct array

mutual
theorem element_returned (messageLayouts : MessageLayouts) : (it : MessageLayout) → it.childLayouts ≠ [] →
    (it.childLayouts.map MessageLayout.name).Nodup → Java.AllDistinct it.childLayouts →
    ∀ m s s', Wire.readElement it s = .ok m s' → s'.flawed = false → Rewritten messageLayouts it m s s'
  | .mk kind name childLayouts => by
    intro some names distinct m s s' done clean
    simp only [Wire.readElement] at done
    obtain ⟨type,s1,tag,done⟩ := returned_of_bind done
    obtain ⟨fields,s2,body,done⟩ := returned_of_bind done
    cases done
    obtain ⟨at1,same1⟩ := byte_returned tag
    obtain ⟨entries,front,stored,_,at2,written⟩ :=
      fields_returned messageLayouts childLayouts names distinct type.toNat [] fields s1 s' nofun body clean
    refine ⟨type :: front,by rw [at1,at2]; rfl,fun typed => ?_⟩
    have inner := written (same1.trans typed) fields (fun it _ => by rw [stored]; rfl)
    have byte : le 1 type.toNat = [type] := by simp [le]
    have whole := wrote_decoded (.mk kind name childLayouts) type.toNat (.inr some) inner
    rw [byte] at whole
    exact whole

theorem fields_returned (messageLayouts : MessageLayouts) : (layouts : List MessageLayout) →
    (layouts.map MessageLayout.name).Nodup → Java.AllDistinct layouts →
    ∀ type stored fields s s', (∀ it ∈ layouts, it.name ∉ stored.map Prod.fst) →
      Wire.readFields layouts type stored s = .ok fields s' → s'.flawed = false →
      ∃ entries front, fields = stored ++ entries ∧
        (∀ key ∈ entries.map Prod.fst, key ∈ layouts.map MessageLayout.name) ∧
        s.rest = front ++ s'.rest ∧
        (s.untyped = false → ∀ structVal,
          (∀ it ∈ layouts, structVal.lookup it.name = entries.lookup it.name) →
          Wrote s' (writeFields messageLayouts type
            (fun name => (writers messageLayouts structVal).lookup name) layouts) front)
  | [] => by
    intro _ _ type stored fields s s' _ done _
    simp only [Wire.readFields] at done
    cases done
    exact ⟨[],[],by simp,nofun,rfl,fun typed _ _ => wrote_ok typed rfl⟩
  | it :: rest => by
    intro names distinct type stored fields s s' fresh done clean
    simp only [List.map_cons,List.nodup_cons] at names
    simp only [Wire.readFields] at done
    obtain ⟨tag,s1,first,done⟩ := returned_of_bind done
    obtain ⟨at1,same1⟩ := byte_returned first
    split at done
    · cases done
    · rename_i fits
      obtain ⟨stored1,s2,payload,others⟩ := returned_of_bind done
      obtain ⟨clean2,kept⟩ := noted_back (Wire.noted_fields rest type stored1) others clean
      have inner : it.type = ARRAY → ∀ m s s', Wire.readElement it s = .ok m s' → s'.flawed = false →
          Rewritten messageLayouts it m s s' := by
        intro array
        have below := distinct_children it array distinct.1
        exact element_returned messageLayouts it below.1 below.2.1 below.2.2
      have freshRest (other : MessageLayout) (member : other ∈ rest) : other.name ∉ stored.map Prod.fst :=
        fresh other (List.mem_cons_of_mem _ member)
      rcases field_returned (Wire.noted_element it) inner payload clean2 with
        ⟨value,front,rfl,kind,at2,written⟩ | ⟨rfl,at2,untyped⟩
      · rw [Codec.insert_fresh it.name value stored (fresh it List.mem_cons_self)] at others
        have freshNow (other : MessageLayout) (member : other ∈ rest) :
            other.name ∉ (stored ++ [(it.name, value)]).map Prod.fst := by
          intro taken
          simp only [List.map_append,List.map_cons,List.map_nil,List.mem_append,List.mem_singleton] at taken
          rcases taken with old | same
          · exact freshRest other member old
          · exact names.1 (same ▸ List.mem_map_of_mem member)
        obtain ⟨entries,back,split,inside,at3,more⟩ := fields_returned messageLayouts rest names.2
          distinct.2 type _ fields s2 s' freshNow others clean
        refine ⟨(it.name, value) :: entries,tag :: front ++ back,?_,?_,?_,fun typed structVal agree => ?_⟩
        · rw [split,List.append_assoc]
          rfl
        · intro key member
          rcases List.mem_cons.mp member with rfl | later
          · exact List.mem_cons_self
          · exact List.mem_cons_of_mem _ (inside key later)
        · rw [at1,at2,at3]
          simp
        · have found : structVal.lookup it.name = some value := by
            rw [agree it List.mem_cons_self,List.lookup_cons_self]
          have agreeRest (other : MessageLayout) (member : other ∈ rest) :
              structVal.lookup other.name = entries.lookup other.name := by
            have apart : (other.name == it.name) = false := by
              rw [beq_eq_false_iff_ne]
              exact fun same => names.1 (same ▸ List.mem_map_of_mem member)
            rw [agree other (List.mem_cons_of_mem _ member),List.lookup_cons,apart]
          have byte : le 1 it.type = [tag] := by
            rw [← Decidable.not_not.mp fits]
            simp [le]
          have head := written (same1.trans typed)
          rw [byte] at head
          simp only [writeFields,found,Codec.lookup_writers,Option.map_some,kind,↓reduceIte]
          have tail (typed : s2.untyped = false) := more typed structVal agreeRest
          simp only [Codec.lookup_writers] at tail
          exact wrote_append kept head tail
      · obtain ⟨entries,back,split,inside,at3,more⟩ := fields_returned messageLayouts rest names.2
          distinct.2 type _ fields s2 s' freshRest others clean
        refine ⟨entries,tag :: back,split,?_,?_,fun typed structVal agree => ?_⟩
        · intro key member
          exact List.mem_cons_of_mem _ (inside key member)
        · rw [at1,← at2,at3]
          rfl
        · -- the encoder asks for a field that was never stored
          have missing : structVal.lookup it.name = none := by
            rw [agree it List.mem_cons_self]
            exact Java.lookup_fresh (mt (inside _) names.1)
          simp only [Wrote,kept untyped,↓reduceIte,writeFields,Codec.lookup_writers,missing,Option.map_none]
          cases messageTypeName messageLayouts type with
          | error e => exact ⟨e,rfl⟩
          | ok struct => exact ⟨_,rfl⟩
end

/-- Distinct names in every struct and a field in every array, in every layout of the table. -/
def WellFormed (messageLayouts : MessageLayouts) : Prop :=
  ∀ type layout, getMessageLayout messageLayouts type = .ok layout →
    (layout.childLayouts.map MessageLayout.name).Nodup ∧ Java.AllDistinct layout.childLayouts

/-- What the decoder accepts is encoded to the bytes up to where its reader stands. -/
def EncodesBack (messageLayouts : MessageLayouts) (bytes : List UInt8) : Prop :=
  ∀ m input, readMessage messageLayouts ⟨bytes, 0⟩ = .ok (m, input) →
    getBinaryMessage messageLayouts m = .ok (bytes.take input.pos)

/-- The bytes can be read through without a flaw, and a field that is neither an int nor a
string nor an array lies on the way. -/
def Untyped (messageLayouts : MessageLayouts) (bytes : List UInt8) : Prop :=
  ∃ m s, Wire.readMessage messageLayouts { rest := bytes } = .ok m s ∧ s.flawed = false ∧
    s.untyped = true

/-- What has been read of a whole message, and what the encoder makes of it. -/
theorem message_returned {messageLayouts : MessageLayouts} (wellFormed : WellFormed messageLayouts)
    {m : FBTCtlMessage} {s s' : Wire.Scan} (done : Wire.readMessage messageLayouts s = .ok m s')
    (typed : s.untyped = false) (clean : s'.flawed = false) :
    ∃ front, s.rest = front ++ s'.rest ∧ Wrote s' (getBinaryMessage messageLayouts m) front := by
  obtain ⟨type,s1,tag,done⟩ := returned_of_bind done
  obtain ⟨at1,same1⟩ := byte_returned tag
  split at done
  · rename_i above
    cases found : getMessageLayout messageLayouts type.toNat with
    | error e =>
      rw [found] at done
      cases done
    | ok layout =>
      simp only [found] at done
      obtain ⟨fields,s2,body,done⟩ := returned_of_bind done
      cases done
      obtain ⟨names,distinct⟩ := wellFormed type.toNat layout found
      obtain ⟨entries,front,stored,_,at2,written⟩ := fields_returned messageLayouts layout.childLayouts
        names distinct type.toNat [] fields s1 s' nofun body clean
      have inner := written (same1.trans typed) fields (fun it _ => by rw [stored]; rfl)
      have byte : le 1 type.toNat = [type] := by simp [le]
      have whole := wrote_decoded layout type.toNat (.inl (Nat.le_of_lt above)) inner
      refine ⟨type :: front,by rw [at1,at2]; rfl,?_⟩
      rw [byte] at whole
      simp only [getBinaryMessage,decoded_type,found,bind,Except.bind]
      exact whole
  · cases done

/-- Decoding is canonical on exactly the byte strings whose reading meets no field without a
type. -/
theorem encodesBack_iff (messageLayouts : MessageLayouts) (wellFormed : WellFormed messageLayouts)
    (bytes : List UInt8) :
    EncodesBack messageLayouts bytes ↔ ¬Untyped messageLayouts bytes := by
  have strict := Strict.follows_message messageLayouts { rest := bytes } ⟨bytes,0⟩ rfl ⟨rfl,Nat.zero_le _⟩
  have vacuous {e : Err} (failed : readMessage messageLayouts ⟨bytes,0⟩ = .error e) :
      EncodesBack messageLayouts bytes := by
    intro m input done
    rw [failed] at done
    cases done
  simp only [Untyped]
  cases read : Wire.readMessage messageLayouts { rest := bytes } with
  | error stop s =>
    rw [read] at strict
    obtain ⟨e,failed⟩ := Strict.outcome_error strict
    simp [vacuous failed]
  | ok m s =>
    rw [read] at strict
    cases flawed : s.flawed with
    | true =>
      simp only [Strict.Outcome,flawed,↓reduceIte] at strict
      obtain ⟨e,failed,_⟩ := strict
      simp [vacuous failed,flawed]
    | false =>
      simp only [Strict.Outcome,flawed,Bool.false_eq_true,↓reduceIte] at strict
      obtain ⟨next,done,data,standing⟩ := strict
      obtain ⟨front,split,written⟩ := message_returned wellFormed read rfl flawed
      have taken : bytes.take next.pos = front := by
        have parts := List.take_append_drop next.pos bytes
        have behind := standing.rest
        rw [InputReader.rest,data] at behind
        rw [behind] at parts
        exact List.append_cancel_right (parts.trans split)
      have back : EncodesBack messageLayouts bytes ↔ getBinaryMessage messageLayouts m = .ok front := by
        constructor
        · intro canonical
          rw [canonical m next done,taken]
        · intro encoded m' input done'
          rw [done] at done'
          cases done'
          rw [encoded,taken]
      rw [back]
      cases untyped : s.untyped with
      | true =>
        simp only [Wrote,untyped,↓reduceIte] at written
        obtain ⟨e,failed⟩ := written
        simp [failed,flawed,untyped]
      | false =>
        simp only [Wrote,untyped,Bool.false_eq_true,↓reduceIte] at written
        simp [written,untyped]

theorem wellFormed_single (name : String) (number : Nat) (childLayouts : List MessageLayout)
    (protocolHash : Int) (names : (childLayouts.map MessageLayout.name).Nodup)
    (distinct : Java.AllDistinct childLayouts) :
    WellFormed { entries := [message name number childLayouts], protocolHash, loaded := true } := by
  intro type layout found
  simp only [getMessageLayout,message,List.find?_cons,MessageLayout.type] at found
  split at found
  · cases found
  · split at found
    · cases found
    · cases same : number == type with
      | true =>
        simp only [same] at found
        cases found
        exact ⟨names,distinct⟩
      | false =>
        simp only [same] at found
        cases found

/-- A GETIMAGE with a name of one byte. -/
theorem encodesBack_iff_getImage : WellFormed Java.getImage ∧
    (EncodesBack Java.getImage [28,2,1,0,97] ↔ ¬Untyped Java.getImage [28,2,1,0,97]) := by
  have wellFormed := wellFormed_single "GETIMAGE" 28 [stringField "imgname"] (-1) (by decide) ⟨nofun,trivial⟩
  exact ⟨wellFormed,encodesBack_iff Java.getImage wellFormed [28,2,1,0,97]⟩

/-- The table of a line `X=b:I,a:` where 0 is what the type of the second field is left with. -/
def nameLast : MessageLayouts where
  entries := [message "X" 5 [intField "b",.mk UNDEF (str "a") []]]
  protocolHash := 577
  loaded := true

/-- The decoder stores the first field and accepts the tag of the second, which the encoder then
misses. -/
theorem nameLast_not_encoded :
    (load (fun _ => UNDEF) { entries := [] } (str "X=b:I,a:")).toOption.map Prod.snd = some nameLast ∧
    WellFormed nameLast ∧ ¬EncodesBack nameLast [5,1,7,0,0,0,0] := by
  refine ⟨by decide +kernel,?_,fun canonical => ?_⟩
  · exact wellFormed_single "X" 5 [intField "b",.mk UNDEF (str "a") []] 577 (by decide) ⟨nofun,nofun,trivial⟩
  · have encoded := canonical (.struct 5 [(str "b", .int 7)]) ⟨[5,1,7,0,0,0,0],7⟩ rfl
    cases encoded

end Btcontrol.Canonical
