import Colloquy.Script.Basic

/-! The bundled script: a doctor who asks about everything that is said. -/

namespace Colloquy.Script.Doctor

def initials : List String := [
  "How do you do.  Please tell me your problem.",
  "Please tell me what's been bothering you.",
  "Is something troubling you ?",
  "Im here. Talk to me.",
  "Talk to me",
  "Top of the morning to you.",
  "Thanks for waking me up"]

def finals : List String := [
  "Goodbye.  It was nice talking to you.",
  "Goodbye.  This was really a nice talk.",
  "Goodbye.  I'm looking forward to our next session.",
  "This was a good session, wasn't it -- but time is over now.   Goodbye.",
  "Maybe we could discuss this moreover in our next session ?   Goodbye."]

def quits : List String := [
  "bye", "goodbye", "done", "exit", "quit"]

def pres : List Substitution := [
  ⟨"dont", "don't"⟩,
  ⟨"cant", "can't"⟩,
  ⟨"wont", "won't"⟩,
  ⟨"recollect", "remember"⟩,
  ⟨"recall", "remember"⟩,
  ⟨"dreamt", "dreamed"⟩,
  ⟨"dreams", "dream"⟩,
  ⟨"maybe", "perhaps"⟩,
  ⟨"certainly", "yes"⟩,
  ⟨"machine", "computer"⟩,
  ⟨"machines", "computer"⟩,
  ⟨"computers", "computer"⟩,
  ⟨"were", "was"⟩,
  ⟨"you're", "you are"⟩,
  ⟨"i'm", "i am"⟩,
  ⟨"same", "alike"⟩,
  ⟨"identical", "alike"⟩,
  ⟨"equivalent", "alike"⟩]

def posts : List Substitution := [
  ⟨"am", "are"⟩,
  ⟨"your", "my"⟩,
  ⟨"me", "you"⟩,
  ⟨"myself", "yourself"⟩,
  ⟨"yourself", "myself"⟩,
  ⟨"i", "you"⟩,
  ⟨"you", "I"⟩,
  ⟨"my", "your"⟩,
  ⟨"i'm", "you are"⟩]

def synonyms : List Pattern.Synonym := [
  ⟨"be", ["am", "is", "are", "was"]⟩,
  ⟨"belief", ["feel", "think", "believe", "wish"]⟩,
  ⟨"cannot", ["can't"]⟩,
  ⟨"desire", ["want", "need"]⟩,
  ⟨"everyone", ["everybody", "nobody", "noone"]⟩,
  ⟨"family", ["mother", "mom", "father", "dad", "sister", "brother", "wife", "children", "child", "uncle", "aunt"]⟩,
  ⟨"happy", ["elated", "glad", "better"]⟩,
  ⟨"sad", ["unhappy", "depressed", "sick"]⟩]

def retouches : List Script.Retouch := [
  ⟨" old old", " old"⟩,
  ⟨"\\bthey were( not)? me\\b", "it was\\1 me"⟩,
  ⟨"\\bthey are( not)? me\\b", "it is\\1 me"⟩,
  ⟨"Are they( always)? me\\b", "it is\\1 me"⟩,
  ⟨"\\bthat your( own)? (\\w+)( now)? \\?", "that you have your\\1 \\2 ?"⟩,
  ⟨"\\bI to have (\\w+)", "I have \\1"⟩,
  ⟨"Earlier you said your( own)? (\\w+)( now)?\\.", "Earlier you talked about your \\2."⟩]

def onXnone : Rule := ⟨"xnone", 0, [
    ⟨"*", [
      "I'm not sure I understand you fully.",
      "Please go on.",
      "Can you repeat that please ?",
      "What does that suggest to you ?",
      "Do you feel strongly about discussing such things ?",
      "That is interesting.  Please continue.",
      "Tell me more about that.",
      "Do go on.",
      "Please talk more about it",
      "Does talking about this bother you ?",
      "Can you rephrase that ?",
      "I see. Tell me more.",
      "Interesting. Is this something you are sorry about ?",
      "Mmm hmmm. Is this is your favorite subject ?",
      "Now we are getting somewhere. Explain more.",
      "I see. How does that make you feel ?"]⟩]⟩

def onSorry : Rule := ⟨"sorry", 0, [
    ⟨"*", [
      "Please don't apologize.",
      "Apologies are not necessary.",
      "I've told you that apologies are not required.",
      "It did not bother me.  Please continue.",
      "I have no feelings. Do continue.",
      "There is nothing to worry about"]⟩]⟩

def onApologize : Rule := ⟨"apologize", 0, [
    ⟨"*", [
      "goto sorry"]⟩]⟩

def onRemember : Rule := ⟨"remember", 5, [
    ⟨"* i remember *", [
      "Do you often think of (2) ?",
      "Does thinking of (2) bring anything else to mind ?",
      "What else do you recollect ?",
      "Why do you remember (2) just now ?",
      "What in the present situation reminds you of (2) ?",
      "What is the connection between me and (2) ?",
      "What else does (2) remind you of ?"]⟩,
    ⟨"* do you remember *", [
      "Did you think I would forget (2) ?",
      "Why do you think I should recall (2) now ?",
      "What about (2) ?",
      "goto what",
      "You mentioned (2) ?"]⟩,
    ⟨"* you remember *", [
      "How could I forget (2) ?",
      "What about (2) should I remember ?",
      "goto you"]⟩]⟩

def onForget : Rule := ⟨"forget", 5, [
    ⟨"* i forget *", [
      "Can you think of why you might forget (2) ?",
      "Why can't you remember (2) ?",
      "How often do you think of (2) ?",
      "Does it bother you to forget that ?",
      "Could it be a mental block ?",
      "Are you generally forgetful ?",
      "Do you think you are suppressing (2) ?"]⟩,
    ⟨"* did you forget *", [
      "Why do you ask ?",
      "Are you sure you told me ?",
      "Would it bother you if I forgot (2) ?",
      "Why should I recall (2) just now ?",
      "goto what",
      "Tell me more about (2)."]⟩]⟩

def onHello : Rule := ⟨"hello", 0, [
    ⟨"*", [
      "How do you do.  Please state your problem.",
      "Hi.  What seems to be your problem ?"]⟩]⟩

def onHi : Rule := ⟨"hi", 0, [
    ⟨"*", [
      "goto hello"]⟩]⟩

def onHey : Rule := ⟨"hey", 0, [
    ⟨"*", [
      "goto hello"]⟩]⟩

def onComputer : Rule := ⟨"computer", 50, [
    ⟨"*", [
      "Do computers worry you ?",
      "Why do you mention computers ?",
      "What do you think machines have to do with your problem ?",
      "Don't you think computers can help people ?",
      "What about machines worries you ?",
      "What do you think about machines ?",
      "You don't think I am a computer program, do you ?"]⟩]⟩

def onName : Rule := ⟨"name", 15, [
    ⟨"*", [
      "I am not interested in names.",
      "OK, my name is ElizaBot. What do you need to know ?",
      "I've told you before, I don't care about names -- please continue."]⟩]⟩

def onYes : Rule := ⟨"yes", 0, [
    ⟨"*", [
      "You seem quite sure.",
      "OK, but can you elaborate a bit?"]⟩]⟩

def onNo : Rule := ⟨"no", 0, [
    ⟨"*", [
      "Are you saying no just to be negative?",
      "You are being a bit negative.",
      "Why not?",
      "Why 'no'?"]⟩]⟩

def onMy : Rule := ⟨"my", 2, [
    ⟨"$ * my *", [
      "Does that have anything to do with the fact that your (2) ?",
      "Let's discuss further why your (2).",
      "Earlier you said your (2).",
      "But your (2)."]⟩,
    ⟨"* my* @family *", [
      "Tell me more about your family.",
      "Who else in your family (4) ?",
      "Your (3) ?",
      "What else comes to your mind when you think of your (3) ?"]⟩,
    ⟨"* my *", [
      "Your (2) ?",
      "Why do you say your (2) ?",
      "Does that suggest anything else which belongs to you?",
      "Is it important to you that your (2)?"]⟩]⟩

def onI : Rule := ⟨"i", 0, [
    ⟨"* i @desire *", [
      "What would it mean to you if you got (3) ?",
      "Why do you want (3) ?",
      "Suppose you got (3) soon.",
      "What if you never got (3) ?",
      "What would getting (3) mean to you ?"]⟩,
    ⟨"* i am* @sad *", [
      "I am sorry to hear that you are (3).",
      "Do you think coming here will help you not to be (3) ?",
      "I'm sure it's not pleasant to be (3).",
      "Can you explain what made you (3) ?"]⟩,
    ⟨"* i am* @happy *", [
      "How have I helped you to be (3) ?",
      "What makes you (3) just now ?",
      "Can you explain why you are suddenly (3) ?"]⟩,
    ⟨"* i @belief *", [
      "Do you really think so ?",
      "But you are not sure you (3).",
      "Do you really doubt you (3) ?"]⟩,
    ⟨"* i am *", [
      "Is it because you are (2) that you came to me ?",
      "How long have you been (2) ?",
      "Do you believe it is normal to be (2) ?",
      "Do you enjoy being (2) ?"]⟩,
    ⟨"*", [
      "You say (1) ?",
      "Can you elaborate on that ?",
      "Do you say (1) for some special reason ?",
      "That's quite interesting."]⟩]⟩

def onYou : Rule := ⟨"you", 0, [
    ⟨"* you are *", [
      "What makes you think I am (2)?",
      "Does it please you to believe I am (2)?",
      "Do you sometimes wish you were (2)?",
      "Perhaps you would like to be (2)."]⟩,
    ⟨"* you *", [
      "We were discussing you, not me.",
      "Oh, I (2)?",
      "You're not really talking about me, are you?",
      "What are your feelings now?"]⟩]⟩

def onWhy : Rule := ⟨"why", 0, [
    ⟨"* why don't you *", [
      "Do you believe I don't (2)?",
      "Perhaps I will (2) in good time.",
      "Should you (2) yourself?",
      "You want me to (2)?",
      "goto what"]⟩,
    ⟨"* why can't i *", [
      "Do you think you should be able to (2)?",
      "Do you want to be able to (2)?",
      "Do you believe this will help you to (2)?",
      "Have you any idea why you can't (2)?",
      "goto what"]⟩,
    ⟨"*", [
      "goto what"]⟩]⟩

def onWhat : Rule := ⟨"what", 0, [
    ⟨"*", [
      "Why do you ask ?",
      "Does that question interest you ?",
      "What is it you really want to know ?",
      "Are such questions much on your mind ?",
      "What answer would please you most ?",
      "What do you think ?",
      "What comes to mind when you ask that ?",
      "Have you asked such questions before ?",
      "Have you asked anyone else ?"]⟩]⟩

def rules : List Rule := [
  onXnone, onSorry, onApologize, onRemember, onForget, onHello,
  onHi, onHey, onComputer, onName, onYes, onNo,
  onMy, onI, onYou, onWhy, onWhat]

end Colloquy.Script.Doctor

namespace Colloquy.Script

def doctor : Script :=
  { rules := Doctor.rules
    synonyms := Doctor.synonyms
    pres := Doctor.pres
    posts := Doctor.posts
    retouches := Doctor.retouches
    quits := Doctor.quits
    initials := Doctor.initials
    finals := Doctor.finals }

end Colloquy.Script
