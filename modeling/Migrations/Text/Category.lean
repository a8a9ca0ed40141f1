/-!
# General Categories of Characters

The property `General_Category` as a table: the categories of all code points from zero on, as runs
of equal category.  A run is a letter for its category, followed by its length unless that is one.
-/

namespace Migrations.Text

inductive Category where
  | uppercaseLetter
  | lowercaseLetter
  | titlecaseLetter
  | modifierLetter
  | otherLetter
  | nonspacingMark
  | spacingMark
  | enclosingMark
  | decimalNumber
  | letterNumber
  | otherNumber
  | connectorPunctuation
  | dashPunctuation
  | openPunctuation
  | closePunctuation
  | initialPunctuation
  | finalPunctuation
  | otherPunctuation
  | mathSymbol
  | currencySymbol
  | modifierSymbol
  | otherSymbol
  | spaceSeparator
  | lineSeparator
  | paragraphSeparator
  | control
  | format
  | surrogate
  | privateUse
  | unassigned
  deriving DecidableEq, Repr, Inhabited

namespace Category

def all : List Category :=
  [.uppercaseLetter, .lowercaseLetter, .titlecaseLetter, .modifierLetter,
    .otherLetter, .nonspacingMark, .spacingMark, .enclosingMark,
    .decimalNumber, .letterNumber, .otherNumber, .connectorPunctuation,
    .dashPunctuation, .openPunctuation, .closePunctuation, .initialPunctuation,
    .finalPunctuation, .otherPunctuation, .mathSymbol, .currencySymbol,
    .modifierSymbol, .otherSymbol, .spaceSeparator, .lineSeparator,
    .paragraphSeparator, .control, .format, .surrogate,
    .privateUse, .unassigned]

/-- The runs of equal category, in text form. -/
def table : String :=
  String.join [
    "z32wr3tr3norsrmr2i10r2s3r2a26nroulub26nsosz33wrt4vruvepsAvuvsk2ubr2ukeqk3ra23sa7b24sb8ababab",
    "ababababababababababababababababababababababababab2abababababababab2abababababababababababab",
    "abababababababababababa2babab3a2baba2ba3b2a4ba2ba3b3a2ba2bababa2bab2aba2ba3baba2b2eab3e4acba",
    "cbacbabababababababab2ababababababababab2acbaba3babababababababababababababababababababababa",
    "bababababababab7a2ba2b2aba4babababab69eb27d18u4d12u14d5u7dudu17f112ababduabD2db3raD4u2ara3Da",
    "Da2ba17Da9b35ab2a3b3abababababababababababab5absaba2b2a51b48abababababababababababababababab",
    "abvf5h2abababababababababababababababababababababababababababa2babababababab2abababababababa",
    "bababababababababababababababababababababababababababababababababababababababababDa38D2dr6b4",
    "1rmD2v2tDf45mfrf2rf2rfD8e27D4e4r2D11A6s3r2tr2v2f11rAr3e32de10f21i10r4e2fe99ref7Avf6d2f2vf4e2",
    "i10e3v2er14DAefe30f27D2e89f11eD14i10e33f9d2vr3dD2ft2e22f4df9df3df5D2r15De25f3D2rDe11D5e24ue6",
    "DA2D6f8e41df24Af32ge54fgfeg3f8g4fg2ef7e10f2r2i10rde15fg2De8D2e2D2e22De7DeD3e4D2feg3f4D2g2D2g",
    "2feD8gD4e2De3f2D2i10e2t2k6vterfD2f2gDe6D4e2D2e22De7De2De2De2D2fDg3f2D4f2D2f3D3fD7e4DeD7i10f2",
    "e3frD10f2gDe9De3De22De7De2De5D2feg3f5Df2gDg2fD2eD15e2f2D2i10rtD7ef6Dfg2De8D2e2D2e22De7De2De5",
    "D2fegfgf4D2g2D2g2fD7f2gD4e2De3f2D2i10vek6D10feDe6D3e3De4D3e2DeDe2D3e2D3e3D3e12D4g2fg2D3g3Dg3",
    "fD2eD6gD14i10k3v6tvD5fg3fe8De3De23De16D2fef3g4Df3Df4D7f2De3D2eD2e2f2D2i10D7rk7vefg2re8De3De2",
    "3De10De5D2fegfg5Dfg2Dg2f2D7g2D6e2De2f2D2i10De2gD12f2g2e9De3De41f2eg3f4Dg3Dg3fevD4e3gk7e3f2D2",
    "i10k9ve6Dfg2De18D3e24De9DeD2e7D3fD4g3f3DfDg8D6i10D2g2rD12e48fe2f7D4te6df8ri10r2D37e2DeDe5De2",
    "4DeDe10fe2f9eD2e5DdDf7Di10D2e4D32ev3r15vrv3f2v6i10k10vfvfvfnonog2e8De36D4f14gf5rf2e5f11Df36D",
    "v8fv6Dv2r5v4r2D37e43g2f4gf6gf2g2f2ei10r6e6g2f2e4f3eg3e2g7e3f4e13fg2f2g6fegi10g3fv2a38DaD5aD2",
    "b43rdb3e329De4D2e7DeDe4D2e41De4D2e33De4D2e7DeDe4D2e15De57De4D2e67D2f3r9k20D3e16v10D6a86D2b6D",
    "2me620vre17we26noD3e75r3j3e8D7e18f3gD9e19f2gr2D9e18f2D12e13De3Df2D12e52f2gf7g8fg2f11r3dr3tef",
    "D2i10D6k10D6r6mr4f3Afi10D6e35de53D7e5f2e34feD5e70D10e31Df3g4f2g3D4g2fg6f3D4vD3r2i10e30D2e5D1",
    "1e44D4e26D6i10kD3v34e23f2g2fD2r2e53gfgf7Dfgfg2f8g6f10D2fi10D6i10D6r7dr6D2f14hf16D49f4ge47fgf",
    "5gfg5fg2e8D3i10r7v10f9v9r2Df2ge30gf4g2f2gf3e2i10e44fgf2g3fgf3g2D8r4e36g8f8g2f2D3r5i10D3e3i10",
    "e30d6r2b9D7a43D2a3r8D8f3rf13gf7e4fe6fe2gf2eD5b44d63b13db34d37f64abababababababababababababab",
    "abababababababababababababababababababababababababababababababababababababababababababababab",
    "ababababababababababababababab9ababababababababababababababababababababababababababababababa",
    "babababababababababababababababababab9a8b6D2a6D2b8a8b8a8b6D2a6D2b8DaDaDaDab8a8b14D2b8c8b8c8b",
    "8c8b5Db2a4cubu3b3Db2a4cu3b4D2b2a4Du3b8a5u3D2b3Db2a4cu2Dw11A5m6r2pqnp2qnpr8xyA5wr9pqr4l2r3sno",
    "r11srlr10wA5DA10kdD2k6s3nodk10s3noDd13D3t33D15f13h4fh3f12D15v2av4av2ba3b2a3bvav2sa5v6avavava",
    "4vba4be4bv2b2a2s5ab4vsv2bvk16j35abj4kv2D4s5v5s2v4sv2sv2sv7sv31s2v2svsv31s268v8nonov20s2v7nov",
    "81sv30s25v40s6v69D25v11D21k60v78k22v183sv9sv54s8v111sv248nononononononok30v44s5nos31nononono",
    "nos16v256s131nononononononononononos63nonos32nos258v48s21v2s6v39D2v32Dv105a48b48aba3b2ababab",
    "a4bab2ab6d2a3bababababababababababababababababababababababababababababababababababababababab",
    "abababababababababab2v6ababf3abD5r4kr2b38DbD5bD2e56D7drD14fe23D9e7De7De7De7De7De7De7De7Df32r",
    "2pqpqr3pqrpqr9mr2mrpqr2pqnonononor5dr10m2r4mrnr13v2r3nonononomD34v26Dv89D12v214D26v12D4wr3vd",
    "ejnononononov2nonononomno2vj9f4g2md5v2j3derv2De86D2f2u2d2eme90rd3eD5e43De94Dv2k4v10e32v36D12",
    "e16v31Dk10v30k8vk15v32k10v39k15v320e6592v64e21013de1143D3v55D9e40d6r2e268dr3e16i10e2D20ababa",
    "bababababababababababababababababababababefh3rf10rdababababababababababababababd2f2e70j10f2r",
    "6D8u23d9u2ababababababab3abababababababababababababababababababababababababababababababdb8ab",
    "aba2bababababdu2ababeabab3ababababababababababa5ba5babababababababa4babD5abDbDbababD24d3abed",
    "2be7fe3fe4fe23g2f2gv4fD3k6v2tvD6e52r4D8g2e50g16f2D8r2i10D6f18e6r3ere2fi10e28f8r2e23f11g2D11r",
    "e29D3f3ge47fg2f4g2f2g3r13Ddi10D4r2e5fde9i10e5De41f6g2f2g2f2D9e3fe8fgD2i10D2r4e16de6v3egfge50",
    "fef3e2f2e5f2efeD24e2dr2e11gf2g2r2ed2gfD10e6D2e6D2e6D9e7De7Db43ud4b9du2D4b80e35g2fg2fg2rgfD2i",
    "10D6e11172D12e23D4e49D4B2048C6400e366D2e106D38b7D12b5D5efe10se13De5DeDe2De2De108u17D16e363on",
    "v16e64D2e54D7vD32e12tv3f16r7norD6f16rm2l2nonononononononor2nor4l3r3Dr4mnononor3sms3Drtr2D4e5",
    "De135D2ADr3tr3norsrmr2i10r2s3r2a26nroulub26nsosnornor2e10de45d2e31D3e6D2e6D2e6D2e3D3t2suvt2D",
    "vs4v2D10A3v2D2e12De26De19De2De15D2e14D34e123D5r3D4k45D3v9j53k4v17k2v3Dv13D3vD47v45fD130e29D3",
    "e49D15fk27D4e32k4D9e20je8jD5e38f5D5e30Dre36D4e8rj5D42a40b40e78D2i10D6a36D4b36D4e40D8e52D11ra",
    "11Da15Da7Da2Db11Db15Db7Db2D67e311D9e22D10e8D24d6Dd42Dd9D69e6D2eDe44De2D3eD2e23Drk8e23v2k7e31",
    "D8k9D48e19De2D5k5e22k6D3re26D5rD64e56D4k2e2k16D2k46ef3Df2D5f4e4De3De29D2f3D4fk9D7r9D7e29k2re",
    "29k3D32e8ve28f2D4k5r7D9e54D3r7e22D2k8e19D5k8e18D7r4D12k7D80e73D55a51D13b51D7k6e36f4D8i10D294",
    "k31De42Df2mD2e2D75f3e29k10eD8e22f11k4r5D22e18f4r4D38e21k7D20e23D9gfge53f15r7D4k20i10fe2f2eD9",
    "f3ge45g3f4g2f2r2Ar4fD10AD2e25D7i10D6f3e36f5gf8Di10r4eg2eD8e35fr2eD9f2ge48g3f9g2e4r4f4rgfi10e",
    "rer3Dk20D11e18De25g3f3g2fgf2r6fe2fD62e7DeDe4De15De10rD6e47fg3f8D5i10D6f2g2De8D2e2D2e22De7De2",
    "De5Df2eg2fg4D2g2D2g3D2eD6gD5e5g2D2f7D3f5D139e53g3f8g2f3gfe4r5i10r2Drfe3D30e48g3f6gfg4f2gf2e2",
    "reD8i10D166e47g3f4D2g4f2gf2r23e4f2D34e48g3f8g2fgf2r3eD11i10D6r13D19e43fgfg2f6gferD6i10D54e27",
    "D2f3g2f4gf5D4i10k2r3ve7D185e44g3f9gf2rD100a32b32i10k9D12e8D2eD2e8De2De24g6Dg2D2f2gfegegfr3D9",
    "i10D70e8D2e39g3f4D2f2g4feregD27ef10e40f6gef4r8fD8ef6g2f3e46f13gf2r3er5D13e73D7r10D246e9De37g",
    "f7Df6gfer5D10i10k19D3r2e30D2f22Dgf7gf2gf2D73e7De2De38f6D3fDf2Df7efD8i10D6e6De2De32g5Df2Dg2fg",
    "feD7i10D310e19f2g2r2D7f2ege13De34g2f5D3g2fgfr13i10D86eD15k21v8t4v17D13re922D102j111Dr5D11e19",
    "6D2636e97r2D13e1072A16fe6f15D4010e583D8633e569D7e31Di10D4r2e79Di10D6e30D2f5rD10e48f7r5v4d4rv",
    "D10i10Dk7De21D5e19D688a32b32k23r4D101e75D4feg55D7f4d13D64d2rdfD11g2D14e6136D8e1238D42e9D8935",
    "d4Dd7Dd2De291D15eD29e3D2eD14e4D8e396D2308e107D5e13D3e9D7e10D2vf2rA4D4700f46D2f23D9v116D60v24",
    "6D10v39D2v60g2f3v3g6A8f8v2f7v30f4v61D21v66f3vD122k20D12k20D12v87D9k25D135a26b26a26b7Db18a26b",
    "26aDa2D2aD2a2D2a4Da8b4DbDb7Db11a26b26a2Da4D2a8Da7Db26a2Da4Da5DaD3a7Db26a26b26a26b26a26b26a26",
    "b26a26b26a26b28D2a25sb25sb6a25sb25sb6a25sb25sb6a25sb25sb6a25sb25sb6abD2i50v512f55v4f50v8fv14",
    "fv2r5D15f5Df15D1104b10eb20D6b6D213f7Df17D2f7Df2Df5D5d62D33fD112e45D3f7d7D2i10D4evD320e30fD17",
    "e44f4i10D5tD464e27df4i10D742e7De4De2De15De197D2k9f7D41a34b34f7dD4i10D4r2D785k59vk3tk4D76k45v",
    "k15D194e4De27De2DeD2eDe10De4DeDeD6eD4eDeDeDe3De2DeD2eDeDeDeDeDe2DeD2e4De7De4De4DeDe10De17D5e",
    "3De5De17D52s2D270v44D4v100D12v15D2v15Dv15Dv37D10k13v161D56v29D13v44D4v9D7v2D14v6D154v251u5v7",
    "28D4v17D3v13D3v119D4v95D6v12D4vD15v12D4v56D8v10D6v40D8v30D2v2D78v340D12v14D2v13D3v9D7v46Dv7D",
    "8v14D4v9D7v9D7v147Dv55D37i10D1030e42720D32e4154D6e222D2e5762D14e7473D3103e542D1506e4939D5e41",
    "92D711761AD30A96D128f240D65040C65534D2C65534D2"]

def ofLetter? (c : Char) : Option Category :=
  if c.isLower then all[c.toNat - 'a'.toNat]?
  else if c.isUpper then all[c.toNat - 'A'.toNat + 26]?
  else none

/-- Reads runs: the category of the run at hand, its length so far, and the text after that. -/
def readRuns (current : Category) (length : Nat) : List Char → List (Category × Nat)
  | [] => [(current, length)]
  | c :: cs =>
    match ofLetter? c with
    | some next => (current, length) :: readRuns next 0 cs
    | none => readRuns current (length * 10 + (c.toNat - '0'.toNat)) cs

/-- Each run with the first code point after it. -/
def closeRuns (start : Nat) : List (Category × Nat) → List (Nat × Category)
  | [] => []
  | (category, length) :: rest =>
    let stop := start + max length 1
    (stop, category) :: closeRuns stop rest

def runs : List (Nat × Category) :=
  match table.toList with
  | [] => []
  | c :: cs => closeRuns 0 (readRuns ((ofLetter? c).getD .unassigned) 0 cs)

def ofChar (c : Char) : Category :=
  match runs.find? (fun run => c.toNat < run.1) with
  | some (_, category) => category
  | none => .unassigned

end Category

end Migrations.Text
