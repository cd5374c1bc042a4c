import FuturesCellProxy.Proxy.OperationRuns
import Mathlib.Data.Set.Function

/-! What the signature of an order binds. The signed fields are written one behind the
other, so a signature fixes their text, and the fields up to where one ends and the next
begins. -/
namespace FuturesCellProxy.Proxy
open Foundation Rpc FuturesProxy

/-- `FuturesTrade` goes on behind its own checks of a request, to the services. -/
def Accepts (flags : Flags) (platform : Platform) (req : FuturesTradeRequest) : Prop :=
  ∃ trace ret, Run (futuresTrade flags platform req) trace ret ∧ trace ≠ []

structure SameFields (req req' : FuturesTradeRequest) : Prop where
  futuresId : req.futuresId = req'.futuresId
  symbol : req.symbol = req'.symbol
  volume : req.volume = req'.volume
  type : req.type = req'.type
  price : req.price = req'.price

structure SameBounds (req req' : FuturesTradeRequest) : Prop where
  futuresId : req.futuresId.length = req'.futuresId.length
  symbol : req.symbol.length = req'.symbol.length
  volume : req.volume.length = req'.volume.length
  type : (decimalInt req.type).length = (decimalInt req'.type).length

theorem signature_of_accepts {flags : Flags} {platform : Platform} {req : FuturesTradeRequest}
    (accepts : Accepts flags platform req) : signatureOf platform req = req.signature := by
  obtain ⟨trace,ret,run,asked⟩ := accepts
  rcases requireSession_run run with ⟨_,quiet,_⟩ | ⟨present,_,run⟩
  · exact absurd quiet asked
  by_contra forged
  rw [if_pos forged] at run
  exact asked ((Run.pure_iff _ _ _).mp run).1

theorem sameFields_iff {req req' : FuturesTradeRequest} (text : signedText req = signedText req') :
    SameFields req req' ↔ SameBounds req req' := by
  constructor
  · intro same
    exact ⟨congrArg _ same.futuresId,congrArg _ same.symbol,congrArg _ same.volume,
      congrArg (fun type => (decimalInt type).length) same.type⟩
  · intro bounds
    simp only [signedText,List.append_assoc] at text
    obtain ⟨futuresId,text⟩ := List.append_inj text bounds.futuresId
    obtain ⟨symbol,text⟩ := List.append_inj text bounds.symbol
    obtain ⟨volume,text⟩ := List.append_inj text bounds.volume
    obtain ⟨type,price⟩ := List.append_inj text bounds.type
    exact ⟨futuresId,symbol,volume,decimalInt_injective type,price⟩

/-- Two accepted orders with one signature have one signed text, and the same fields
exactly when these end at the same places. -/
theorem trade_signature (flags : Flags) (platform : Platform) (req req' : FuturesTradeRequest)
    (injective : Set.InjOn (fun text => platform.aesEncrypt (platform.md5 text)) {signedText req,signedText req'})
    (accepts : Accepts flags platform req) (accepts' : Accepts flags platform req')
    (signature : req.signature = req'.signature) :
    signedText req = signedText req' ∧ (SameFields req req' ↔ SameBounds req req') := by
  have text : signedText req = signedText req' := by
    apply injective (by simp) (by simp)
    calc signatureOf platform req
      _ = req.signature := signature_of_accepts accepts
      _ = req'.signature := signature
      _ = signatureOf platform req' := (signature_of_accepts accepts').symm
  exact ⟨text,sameFields_iff text⟩

def shiftedTrade : FuturesTradeRequest := {sampleTrade with futuresId := ascii "1001H",symbol := ascii "SI"}

theorem accepts_sample : Accepts {} .sample sampleTrade :=
  ⟨_,_,Run.play obliging _ [],by decide +kernel⟩

theorem accepts_shifted : Accepts {} .sample shiftedTrade :=
  ⟨_,_,Run.play obliging _ [],by decide +kernel⟩

theorem injOn_shifted : Set.InjOn (fun text => Platform.sample.aesEncrypt (Platform.sample.md5 text))
    {signedText sampleTrade,signedText shiftedTrade} := by
  have text : signedText shiftedTrade = signedText sampleTrade := by decide
  rw [text,Set.pair_eq_singleton]
  exact Set.injOn_singleton _ _

theorem trade_signature_shifted :
    signedText sampleTrade = signedText shiftedTrade ∧
      (SameFields sampleTrade shiftedTrade ↔ SameBounds sampleTrade shiftedTrade) :=
  trade_signature {} .sample sampleTrade shiftedTrade injOn_shifted accepts_sample accepts_shifted rfl

theorem signature_shared :
    Set.InjOn (fun text => Platform.sample.aesEncrypt (Platform.sample.md5 text))
      {signedText sampleTrade,signedText shiftedTrade} ∧
    Accepts {} .sample sampleTrade ∧ Accepts {} .sample shiftedTrade ∧
    sampleTrade.signature = shiftedTrade.signature ∧ ¬ SameFields sampleTrade shiftedTrade := by
  refine ⟨injOn_shifted,accepts_sample,accepts_shifted,rfl,fun same => ?_⟩
  exact absurd same.futuresId (by decide)

end FuturesCellProxy.Proxy
